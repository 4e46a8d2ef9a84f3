import VedDb.Cache.Data
import VedDb.Floats
import VedDb.Storage.Hybrid

/-!
# The cache layer

`CacheLayer` of `cache/cache_layer.rs` and the expiry heap of `cache/ttl_manager.rs`, each method at
the instant it reads from the clock.  The counters of hits and evictions are left out: nothing reads
them.
-/

namespace VedDb

/-!
## Eviction policies

Which entries of the cache are evicted first, from `cache/eviction.rs`.  The scores are doubles, all
of them whole numbers, so a score is the integer it stands for.
-/

inductive EvictionPolicy where
  | lru
  | lfu
  | ttl
  | noEviction
  deriving DecidableEq

abbrev CacheEntry := String × CachedValue

namespace EvictionPolicy

/-- `i64 as f64` and `u64 as f64`. -/
def scoreOf (n : Int) : Int := if 0 ≤ n then F64.round n.toNat else -F64.round (-n).toNat

/-- `calculate_score`.  An entry without an expiry counts as `f64::MAX`. -/
def calculateScore (policy : EvictionPolicy) (now : DateTime) (cached : CachedValue) : Int :=
  match policy with
  | .lru => scoreOf ((now - cached.lastAccessed).tdiv 1000000000)
  | .lfu => scoreOf cached.accessCount.toNat
  | .ttl =>
    match cached.expiresAt with
    | some expiresAt => scoreOf ((expiresAt - now).tdiv 1000000000)
    | none => 2 ^ 1024 - 2 ^ 971
  | .noEviction => 0

/-- `select_victims`: the keys in the order of eviction, at most `count` of them. -/
def selectVictims (policy : EvictionPolicy) (now : DateTime) (candidates : List CacheEntry)
    (count : Nat) : List String :=
  let scored := candidates.map fun entry => (entry.1, policy.calculateScore now entry.2)
  let sorted :=
    match policy with
    | .lru => scored.mergeSort fun a b => b.2 ≤ a.2
    | .lfu | .ttl => scored.mergeSort fun a b => a.2 ≤ b.2
    | .noEviction => []
  (sorted.take count).map Prod.fst

end EvictionPolicy

/-! ## The layer -/

structure CacheConfig where
  maxSizeBytes : UInt64
  evictionPolicy : EvictionPolicy
  defaultTtl : Option Nat

/-- An entry of the expiry heap.  The heap is a list: the order among its entries is never seen. -/
structure ExpirationEntry where
  key : String
  expiresAt : DateTime

structure CacheLayer where
  cache : Std.ExtTreeMap String CachedValue
  ttlManager : List ExpirationEntry
  config : CacheConfig
  currentSize : UInt64

/-- The order in which the concurrent map of the cache is iterated. -/
structure CacheOrder where
  arrange : List CacheEntry → List CacheEntry
  perm : ∀ entries, (arrange entries).Perm entries

/-- The order of the keys. -/
def CacheOrder.sorted : CacheOrder := { arrange := id, perm := fun _ => .refl _ }

namespace CacheLayer

def new (config : CacheConfig) : CacheLayer :=
  { cache := ∅, ttlManager := [], config := config, currentSize := 0 }

/-! ## Removing entries -/

/-- `self.cache.remove(key)` with the size of what it removes taken off the total. -/
def take (layer : CacheLayer) (key : String) : CacheLayer :=
  match layer.cache[key]? with
  | none => layer
  | some cached =>
    { layer with
      cache := layer.cache.erase key
      currentSize := layer.currentSize - cached.sizeBytes }

/-- `TtlManager::remove`. -/
def forgetExpiry (layer : CacheLayer) (key : String) : CacheLayer :=
  { layer with ttlManager := layer.ttlManager.filter fun entry => entry.key ≠ key }

/-- `remove`: whether there was an entry. -/
def remove (layer : CacheLayer) (key : String) : Bool × CacheLayer :=
  if layer.cache.contains key then (true, (layer.take key).forgetExpiry key) else (false, layer)

/-- `evict_expired`: the entries of the keys whose recorded instants have come. -/
def evictExpired (layer : CacheLayer) (now : DateTime) : CacheLayer :=
  let expired := layer.ttlManager.filter fun entry => entry.expiresAt ≤ now
  let layer :=
    { layer with ttlManager := layer.ttlManager.filter fun entry => now < entry.expiresAt }
  expired.foldl (fun layer entry => layer.take entry.key) layer

/-- The loop of `evict_by_policy` over its victims. -/
def evictVictims (target : UInt64) : List String → UInt64 → CacheLayer → CacheLayer
  | [], _, layer => layer
  | key :: victims, evicted, layer =>
    if target ≤ evicted then layer
    else
      match layer.cache[key]? with
      | none => evictVictims target victims evicted layer
      | some cached =>
        evictVictims target victims (evicted + cached.sizeBytes)
          ((layer.take key).forgetExpiry key)

def evictByPolicy (order : CacheOrder) (layer : CacheLayer) (now : DateTime) (target : UInt64) :
    CacheLayer :=
  let candidates := order.arrange layer.cache.toList
  let victims := layer.config.evictionPolicy.selectVictims now candidates candidates.length
  evictVictims target victims 0 layer

def clear (layer : CacheLayer) : CacheLayer :=
  { layer with cache := ∅, ttlManager := [], currentSize := 0 }

/-! ## Writing and reading -/

/-- `(target_size as f64 * 1.2) as usize`; the double next to 1.2 is 5404319552844595 / 2^52. -/
def evictSize (targetSize : Nat) : Nat :=
  min (F64.round (F64.round targetSize * 5404319552844595) / 2 ^ 52) (2 ^ 64 - 1)

def ensureSpace (order : CacheOrder) (layer : CacheLayer) (now : DateTime) (requiredSize : UInt64) :
    Except String Unit × CacheLayer :=
  if layer.currentSize + requiredSize ≤ layer.config.maxSizeBytes then (.ok (), layer)
  else if layer.config.evictionPolicy = .noEviction then
    (.error "Cache is full and eviction is disabled", layer)
  else
    let targetSize := layer.currentSize + requiredSize - layer.config.maxSizeBytes
    (.ok (), layer.evictByPolicy order now (UInt64.ofNat (evictSize targetSize.toNat)))

/-- There is room for the value, or eviction makes room. -/
def Fits (layer : CacheLayer) (value : CacheData) : Prop :=
  layer.config.evictionPolicy ≠ .noEviction ∨
    layer.currentSize + UInt64.ofNat value.sizeBytes ≤ layer.config.maxSizeBytes

instance (layer : CacheLayer) (value : CacheData) : Decidable (layer.Fits value) :=
  inferInstanceAs (Decidable (_ ∨ _))

/-- The value `set_with_ttl` stores. -/
def cachedValue (now : DateTime) (value : CacheData) : Option Nat → CachedValue
  | some ttl => .withTtl now value ttl
  | none => .new now value

/-- `self.ttl_manager.add(key, expires_at)`, for a value that expires. -/
def recordExpiry (layer : CacheLayer) (key : String) (expiresAt : Option DateTime) : CacheLayer :=
  match expiresAt with
  | some expiresAt =>
    { layer with ttlManager := { key := key, expiresAt := expiresAt } :: layer.ttlManager }
  | none => layer

/-- The value is put in the place of the old one, and its size in the place of the old size. -/
def store (layer : CacheLayer) (key : String) (cached : CachedValue) : CacheLayer :=
  let freed :=
    match layer.cache[key]? with
    | some old => layer.currentSize - old.sizeBytes
    | none => layer.currentSize
  { layer with
    cache := layer.cache.insert key cached
    currentSize := freed + cached.sizeBytes }

/-- `set_with_ttl`.  The expiry is recorded before there is known to be space. -/
def setWithTtl (order : CacheOrder) (layer : CacheLayer) (now : DateTime) (key : String)
    (value : CacheData) (ttl : Option Nat) : Except String Unit × CacheLayer :=
  let cached := cachedValue now value ttl
  match (layer.recordExpiry key cached.expiresAt).ensureSpace order now cached.sizeBytes with
  | (.error e, layer) => (.error e, layer)
  | (.ok (), layer) => (.ok (), layer.store key cached)

def set (order : CacheOrder) (layer : CacheLayer) (now : DateTime) (key : String)
    (value : CacheData) : Except String Unit × CacheLayer :=
  layer.setWithTtl order now key value layer.config.defaultTtl

def get (layer : CacheLayer) (now : DateTime) (key : String) : Option CacheData × CacheLayer :=
  let layer := layer.evictExpired now
  match layer.cache[key]? with
  | none => (none, layer)
  | some cached =>
    if cached.isExpired now then (none, (layer.remove key).2)
    else
      (some cached.value, { layer with cache := layer.cache.insert key (cached.markAccessed now) })

def expire (layer : CacheLayer) (now : DateTime) (key : String) (ttl : Nat) : Bool × CacheLayer :=
  match layer.cache[key]? with
  | none => (false, layer)
  | some cached =>
    let layer := layer.forgetExpiry key
    (true, { layer with
      cache := layer.cache.insert key (cached.updateTtl now ttl)
      ttlManager :=
        { key := key, expiresAt := CachedValue.expiry now ttl } :: layer.ttlManager })

def persist (layer : CacheLayer) (key : String) : Bool × CacheLayer :=
  match layer.cache[key]? with
  | none => (false, layer)
  | some cached =>
    let layer := layer.forgetExpiry key
    (true, { layer with cache := layer.cache.insert key cached.persist })

/-- The cache layer as the engine calls it, at an instant. -/
def ops (order : CacheOrder) (now : DateTime) : CacheOps CacheLayer where
  get layer key := layer.get now key
  setWithTtl layer key value ttl := layer.setWithTtl order now key value ttl
  remove layer key := (layer.remove key).2
  clear := clear

/-! ## What is cached -/

def peek (layer : CacheLayer) (key : String) : Option CacheData :=
  layer.cache[key]?.map CachedValue.value

/-- Every value cached in the second layer is cached in the first. -/
def Covers (layer layer' : CacheLayer) : Prop :=
  ∀ key data, layer'.peek key = some data → layer.peek key = some data

theorem Covers.refl (layer : CacheLayer) : layer.Covers layer := fun _ _ h => h

theorem Covers.trans {a b c : CacheLayer} (hab : a.Covers b) (hbc : b.Covers c) : a.Covers c :=
  fun key data h => hab key data (hbc key data h)

theorem peek_new (config : CacheConfig) (key : String) : (new config).peek key = none := by
  show (∅ : Std.ExtTreeMap String CachedValue)[key]?.map _ = none
  rw [Std.ExtTreeMap.getElem?_empty]
  rfl

theorem getElem?_take (layer : CacheLayer) (key other : String) :
    (layer.take key).cache[other]? = if key = other then none else layer.cache[other]? := by
  unfold take
  cases hown : layer.cache[key]? with
  | none =>
    dsimp only
    by_cases h : key = other
    · rw [if_pos h, ← h, hown]
    · rw [if_neg h]
  | some cached =>
    show (layer.cache.erase key)[other]? = _
    exact lookup_erase layer.cache key other

theorem peek_take (layer : CacheLayer) (key other : String) :
    (layer.take key).peek other = if key = other then none else layer.peek other := by
  rw [peek, getElem?_take]
  by_cases h : key = other
  · rw [if_pos h, if_pos h]
    rfl
  · rw [if_neg h, if_neg h]
    rfl

theorem covers_take (layer : CacheLayer) (key : String) : layer.Covers (layer.take key) := by
  intro other data h
  rw [peek_take] at h
  by_cases hkey : key = other
  · rw [if_pos hkey] at h
    cases h
  · rw [if_neg hkey] at h
    exact h

theorem peek_remove (layer : CacheLayer) (key other : String) :
    (layer.remove key).2.peek other = if key = other then none else layer.peek other := by
  unfold remove
  by_cases hcontains : layer.cache.contains key = true
  · rw [if_pos hcontains]
    exact peek_take layer key other
  · rw [if_neg hcontains]
    by_cases h : key = other
    · rw [if_pos h, peek, ← h, Std.ExtTreeMap.getElem?_eq_none]
      · rfl
      · rw [Std.ExtTreeMap.mem_iff_contains]
        exact hcontains
    · rw [if_neg h]

theorem covers_remove (layer : CacheLayer) (key : String) : layer.Covers (layer.remove key).2 := by
  intro other data h
  rw [peek_remove] at h
  by_cases hkey : key = other
  · rw [if_pos hkey] at h
    cases h
  · rw [if_neg hkey] at h
    exact h

theorem covers_evictExpired (layer : CacheLayer) (now : DateTime) :
    layer.Covers (layer.evictExpired now) := by
  have hfold (entries : List ExpirationEntry) (layer : CacheLayer) :
      layer.Covers (entries.foldl (fun layer entry => layer.take entry.key) layer) := by
    induction entries generalizing layer with
    | nil => exact .refl layer
    | cons entry entries ih => exact (covers_take layer entry.key).trans (ih _)
  exact hfold _ { layer with
    ttlManager := layer.ttlManager.filter fun entry => now < entry.expiresAt }

/-- Eviction only takes entries away. -/
theorem covers_evictVictims (target : UInt64) (victims : List String) (evicted : UInt64)
    (layer : CacheLayer) : layer.Covers (evictVictims target victims evicted layer) := by
  induction victims generalizing evicted layer with
  | nil => exact .refl layer
  | cons key victims ih =>
    rw [evictVictims]
    split
    · exact .refl layer
    · split
      · exact ih evicted layer
      · exact (covers_take layer key).trans (ih _ ((layer.take key).forgetExpiry key))

theorem covers_evictByPolicy (order : CacheOrder) (layer : CacheLayer) (now : DateTime)
    (target : UInt64) : layer.Covers (layer.evictByPolicy order now target) :=
  covers_evictVictims target _ 0 layer

theorem covers_ensureSpace (order : CacheOrder) (layer : CacheLayer) (now : DateTime)
    (requiredSize : UInt64) : layer.Covers (layer.ensureSpace order now requiredSize).2 := by
  unfold ensureSpace
  split
  · exact .refl layer
  · split
    · exact .refl layer
    · exact covers_evictByPolicy order layer now _

theorem covers_recordExpiry (layer : CacheLayer) (key : String) (expiresAt : Option DateTime) :
    layer.Covers (layer.recordExpiry key expiresAt) := by
  unfold recordExpiry
  split
  · exact .refl layer
  · exact .refl layer

theorem peek_insert (layer : CacheLayer) (key other : String) (cached : CachedValue)
    (size : UInt64) :
    ({ layer with
        cache := layer.cache.insert key cached
        currentSize := size } : CacheLayer).peek other =
      if key = other then some cached.value else layer.peek other := by
  simp only [peek, lookup_insert]
  split
  · rfl
  · rfl

theorem cachedValue_value (now : DateTime) (value : CacheData) (ttl : Option Nat) :
    (cachedValue now value ttl).value = value := by
  cases ttl with
  | none => rfl
  | some ttl => rfl

theorem cachedValue_sizeBytes (now : DateTime) (value : CacheData) (ttl : Option Nat) :
    (cachedValue now value ttl).sizeBytes = UInt64.ofNat value.sizeBytes := by
  cases ttl with
  | none => rfl
  | some ttl => rfl

/-- After a write the cache holds the new value, and no other but those it held. -/
theorem peek_setWithTtl {order : CacheOrder} {layer : CacheLayer} {now : DateTime}
    {key other : String} {value data : CacheData} {ttl : Option Nat}
    (h : (layer.setWithTtl order now key value ttl).2.peek other = some data) :
    (other = key ∧ data = value) ∨ layer.peek other = some data := by
  let cached := cachedValue now value ttl
  have hvalue : cached.value = value := cachedValue_value now value ttl
  have hcovers := (covers_recordExpiry layer key cached.expiresAt).trans
    (covers_ensureSpace order (layer.recordExpiry key cached.expiresAt) now cached.sizeBytes)
  unfold setWithTtl at h
  dsimp only at h
  split at h
  · next hspace =>
      rw [hspace] at hcovers
      exact .inr (hcovers other data h)
  · next hspace =>
      rw [hspace] at hcovers
      unfold store at h
      rw [peek_insert] at h
      by_cases hkey : key = other
      · rw [if_pos hkey, hvalue] at h
        exact .inl ⟨hkey.symm, (Option.some.inj h).symm⟩
      · rw [if_neg hkey] at h
        exact .inr (hcovers other data h)

theorem fits_recordExpiry {layer : CacheLayer} {key : String} {expiresAt : Option DateTime}
    {value : CacheData} : (layer.recordExpiry key expiresAt).Fits value ↔ layer.Fits value := by
  unfold recordExpiry
  split
  · exact Iff.rfl
  · exact Iff.rfl

/-- A write that fails leaves its expiry behind, and nothing else. -/
theorem setWithTtl_of_not_fits {order : CacheOrder} {layer : CacheLayer} {now : DateTime}
    {key : String} {value : CacheData} {ttl : Option Nat} (h : ¬layer.Fits value) :
    layer.setWithTtl order now key value ttl =
      (.error "Cache is full and eviction is disabled",
        layer.recordExpiry key (cachedValue now value ttl).expiresAt) := by
  have hnot : ¬(layer.recordExpiry key (cachedValue now value ttl).expiresAt).Fits value :=
    mt fits_recordExpiry.mp h
  unfold setWithTtl
  dsimp only
  generalize layer.recordExpiry key (cachedValue now value ttl).expiresAt = recorded at hnot ⊢
  rw [Fits, not_or, not_not] at hnot
  rw [cachedValue_sizeBytes, ensureSpace, if_neg hnot.2, if_pos hnot.1]

/-- A write fails exactly for want of space that eviction may not free. -/
theorem setWithTtl_eq_ok_iff {order : CacheOrder} {layer : CacheLayer} {now : DateTime}
    {key : String} {value : CacheData} {ttl : Option Nat} :
    (layer.setWithTtl order now key value ttl).1 = .ok () ↔ layer.Fits value := by
  by_cases hfits : layer.Fits value
  · refine iff_of_true ?_ hfits
    have hsame : (layer.recordExpiry key (cachedValue now value ttl).expiresAt).Fits value :=
      fits_recordExpiry.mpr hfits
    unfold setWithTtl
    dsimp only
    generalize layer.recordExpiry key (cachedValue now value ttl).expiresAt = recorded at hsame ⊢
    rw [cachedValue_sizeBytes, ensureSpace]
    by_cases hroom : recorded.currentSize + UInt64.ofNat value.sizeBytes ≤
        recorded.config.maxSizeBytes
    · rw [if_pos hroom]
    · rw [if_neg hroom, if_neg (hsame.resolve_right hroom)]
  · rw [setWithTtl_of_not_fits hfits]
    exact iff_of_false nofun hfits

-- A write that succeeds is there.
theorem peek_setWithTtl_self {order : CacheOrder} {layer : CacheLayer} {now : DateTime}
    {key : String} {value : CacheData} {ttl : Option Nat}
    (h : (layer.setWithTtl order now key value ttl).1 = .ok ()) :
    (layer.setWithTtl order now key value ttl).2.peek key = some value := by
  have hvalue := cachedValue_value now value ttl
  unfold setWithTtl at h ⊢
  dsimp only at h ⊢
  split at h
  · cases h
  · next hspace =>
      unfold store
      rw [peek_insert, if_pos rfl, hvalue]

/-- A read returns what is cached under the key, and changes no value. -/
theorem get_peek {layer : CacheLayer} {now : DateTime} {key : String} {data : CacheData}
    (h : (layer.get now key).1 = some data) : layer.peek key = some data := by
  have hcovers := covers_evictExpired layer now key data
  unfold get at h
  dsimp only at h
  split at h
  · cases h
  · next cached hcached =>
      split at h
      · cases h
      · apply hcovers
        rw [peek, hcached]
        exact h

theorem covers_get (layer : CacheLayer) (now : DateTime) (key : String) :
    layer.Covers (layer.get now key).2 := by
  have hcovers := covers_evictExpired layer now
  unfold get
  dsimp only
  split
  · exact hcovers
  · next cached hcached =>
      split
      · exact hcovers.trans (covers_remove _ key)
      · refine hcovers.trans ?_
        intro other data h
        rw [peek_insert] at h
        by_cases hkey : key = other
        · rw [if_pos hkey] at h
          rw [peek, ← hkey, hcached]
          exact h
        · rw [if_neg hkey] at h
          exact h

theorem peek_clear (layer : CacheLayer) (key : String) : layer.clear.peek key = none := by
  show (∅ : Std.ExtTreeMap String CachedValue)[key]?.map _ = none
  rw [Std.ExtTreeMap.getElem?_empty]
  rfl

end CacheLayer

end VedDb
