import VedDb.Cache.Accounting

/-!
# Expiry

The expiry of a key is kept twice, in its value and in the heap.  `set_with_ttl` adds to the heap
without removing what it holds of the key, and before it is known whether the value is stored, so
the heap may hold an expiry that is no longer, or never was, that of the value.
-/

namespace VedDb

/-- A value whose expiry has come. -/
def CachedValue.Due (now : DateTime) (cached : CachedValue) : Prop :=
  ∃ expiresAt ∈ cached.expiresAt, expiresAt ≤ now

namespace CacheLayer

/-- The instant that a TTL stands for. -/
def deadline (now : DateTime) (ttl : Option Nat) : Option DateTime :=
  ttl.map fun (ttl : Nat) => now + (ttl : Int) * 1000000000

def DueInHeap (layer : CacheLayer) (now : DateTime) (key : String) : Prop :=
  ∃ entry ∈ layer.ttlManager, entry.expiresAt ≤ now ∧ entry.key = key

/-- Nothing is evicted in the step: there is room for what is written, or no eviction. -/
def Unevicted (layer : CacheLayer) (op : Moment × LayerOp) : Prop :=
  (∀ percentage, op.2 ≠ .evictPercentage percentage) ∧
    ∀ key value ttl, op.2.write layer = some (key, value, ttl) →
      layer.config.evictionPolicy = .noEviction ∨
        layer.currentSize + UInt64.ofNat value.sizeBytes ≤ layer.config.maxSizeBytes

def LosesOnlyDue (overflow : ChronoOverflow) (layer : CacheLayer) (op : Moment × LayerOp) : Prop :=
  op.2 ≠ .clear → ∀ key cached, op.2 ≠ .remove key → layer.cache[key]? = some cached →
    (layer.step overflow op).cache[key]? = none → cached.Due op.1.now

def ReadsNothingLate (layer : CacheLayer) (op : Moment × LayerOp) : Prop :=
  ∀ key cached expiresAt, op.2 = .get key → layer.cache[key]? = some cached →
    cached.expiresAt = some expiresAt → expiresAt < op.1.now →
    (layer.get op.1.now key).1 = none

/-- A write that succeeds gives its key the expiry of its TTL, and one that fails leaves every value
with its expiry as it was. -/
def WritesExpiry (overflow : ChronoOverflow) (layer : CacheLayer) (op : Moment × LayerOp) : Prop :=
  (∀ key value ttl after, op.2.write layer = some (key, value, ttl) →
    (layer.trySet overflow op.1 key value ttl = some (.ok (), after) →
      after.cache[key]?.map CachedValue.expiresAt = some (deadline op.1.now ttl)) ∧
      ∀ error, layer.trySet overflow op.1 key value ttl = some (.error error, after) →
        after.cache = layer.cache) ∧
    (∀ key ttl after, op.2 = .expire key ttl →
      layer.tryExpire overflow op.1 key ttl = some (true, after) →
      after.cache[key]?.map CachedValue.expiresAt = some (deadline op.1.now (some ttl))) ∧
    ∀ key after, op.2 = .persist key → layer.persist key = (true, after) →
      after.cache[key]?.map CachedValue.expiresAt = some none

/-- No premature and no lost expiry in a step. -/
structure ExpiryExact (overflow : ChronoOverflow) (layer : CacheLayer) (op : Moment × LayerOp) :
    Prop where
  losesOnlyDue : layer.LosesOnlyDue overflow op
  readsNothingLate : layer.ReadsNothingLate op
  writesExpiry : layer.WritesExpiry overflow op

def HeapAgrees (layer : CacheLayer) (now : DateTime) : Prop :=
  ∀ key cached, layer.DueInHeap now key → layer.cache[key]? = some cached →
    cached.Due now

/-- A step that empties the heap of what is due finds it in agreement with the cache, and a TTL that
is stored is one of 63 bits. -/
def ExpiryKept (overflow : ChronoOverflow) (layer : CacheLayer) (op : Moment × LayerOp) : Prop :=
  (∀ key, op.2 = .get key ∨ op.2 = .evictExpired → layer.HeapAgrees op.1.now) ∧
    (∀ key value ttl, op.2.write layer = some (key, value, some ttl) →
      layer.Fits value → overflow op.1.now ttl = false → ttl < 2 ^ 63) ∧
    ∀ key ttl, op.2 = .expire key ttl → layer.cache.contains key = true →
      overflow op.1.now ttl = false → ttl < 2 ^ 63

variable {overflow : ChronoOverflow} {layer : CacheLayer} {moment : Moment} {now : DateTime}
variable {key other : String} {cached : CachedValue} {value : CacheData} {ttl : Option Nat}

/-! ## Lookups after a step -/

theorem getElem?_takeAll_of_mem {entries : List ExpirationEntry} {entry : ExpirationEntry}
    (hmem : entry ∈ entries) (hkey : entry.key = key) :
    (entries.foldl (fun layer entry => layer.take entry.key) layer).cache[key]? = none := by
  cases hown : (entries.foldl (fun layer entry => layer.take entry.key) layer).cache[key]? with
  | none => rfl
  | some cached => exact absurd hkey ((getElem?_takeAll hown).2 entry hmem)

theorem getElem?_takeAll_of_not {entries : List ExpirationEntry}
    (h : ∀ entry ∈ entries, entry.key ≠ key) :
    (entries.foldl (fun layer entry => layer.take entry.key) layer).cache[key]? =
      layer.cache[key]? := by
  induction entries generalizing layer with
  | nil => rfl
  | cons entry entries ih =>
    rw [List.forall_mem_cons] at h
    rw [List.foldl_cons, ih h.2, getElem?_take, if_neg h.1]

theorem getElem?_evictExpired_of_due (h : layer.DueInHeap now key) :
    (layer.evictExpired now).cache[key]? = none := by
  obtain ⟨entry, hmem, hdue, hkey⟩ := h
  unfold evictExpired
  refine getElem?_takeAll_of_mem (List.mem_filter.mpr ⟨hmem, ?_⟩) hkey
  exact decide_eq_true hdue

theorem getElem?_evictExpired_of_not (h : ¬layer.DueInHeap now key) :
    (layer.evictExpired now).cache[key]? = layer.cache[key]? := by
  unfold evictExpired
  refine getElem?_takeAll_of_not fun entry hmem hkey => h ?_
  rw [List.mem_filter, decide_eq_true_eq] at hmem
  exact ⟨entry, hmem.1, hmem.2, hkey⟩

theorem getElem?_remove (layer : CacheLayer) (key other : String) :
    (layer.remove key).2.cache[other]? = if key = other then none else layer.cache[other]? := by
  rw [← getElem?_take]
  unfold remove
  split
  next => rfl
  next hcontains =>
    have hnone : layer.cache[key]? = none := by
      rw [Bool.not_eq_true, Std.ExtTreeMap.contains_eq_isSome_getElem?,
        Option.isSome_eq_false_iff, Option.isNone_iff_eq_none] at hcontains
      exact hcontains
    rw [take_of_none hnone]

/-- A value that is due in the heap is gone after a read, and of the others only the one that is
read goes, when its own expiry has come. -/
theorem getElem?_get_of_due (h : layer.DueInHeap now other) :
    (layer.get now key).2.cache[other]? = none := by
  have hgone := getElem?_evictExpired_of_due h
  unfold CacheLayer.get
  dsimp only
  split
  next => exact hgone
  next cached hcached =>
    have hne : key ≠ other := by
      intro heq
      rw [heq, hgone] at hcached
      cases hcached
    split
    · rw [getElem?_remove, if_neg hne]
      exact hgone
    · rw [lookup_insert, if_neg hne]
      exact hgone

theorem due_of_get (h : layer.cache[other]? = some cached)
    (hlost : (layer.get now key).2.cache[other]? = none) :
    layer.DueInHeap now other ∨ cached.Due now := by
  by_cases hdue : layer.DueInHeap now other
  · exact Or.inl hdue
  · have hkept := getElem?_evictExpired_of_not hdue
    rw [h] at hkept
    unfold CacheLayer.get at hlost
    dsimp only at hlost
    split at hlost
    next =>
      rw [hkept] at hlost
      cases hlost
    next own hown =>
      split at hlost
      next hexpired =>
        rw [getElem?_remove] at hlost
        split at hlost
        next heq =>
          rw [heq, hkept] at hown
          cases hown
          refine Or.inr ?_
          unfold CachedValue.isExpired at hexpired
          split at hexpired
          next expiresAt hexpiresAt =>
            exact ⟨expiresAt, hexpiresAt, (of_decide_eq_true hexpired).le⟩
          next => cases hexpired
        next =>
          rw [hkept] at hlost
          cases hlost
      next =>
        rw [lookup_insert] at hlost
        split at hlost
        next => cases hlost
        next =>
          rw [hkept] at hlost
          cases hlost

/-! ## Writes without eviction -/

theorem setWithTtl_of_room {order : CacheOrder}
    (h : layer.currentSize + UInt64.ofNat value.sizeBytes ≤ layer.config.maxSizeBytes) :
    layer.setWithTtl order now key value ttl =
      (.ok (), (layer.recordExpiry key (cachedValue now value ttl).expiresAt).store key
        (cachedValue now value ttl)) := by
  have hspace : (layer.recordExpiry key (cachedValue now value ttl).expiresAt).ensureSpace order
      now (cachedValue now value ttl).sizeBytes =
        (.ok (), layer.recordExpiry key (cachedValue now value ttl).expiresAt) := by
    unfold recordExpiry
    split <;> exact if_pos (by rw [cachedValue_sizeBytes]; exact h)
  rw [setWithTtl, hspace]

theorem cache_store (layer : CacheLayer) (key : String) (expiresAt : Option DateTime)
    (cached : CachedValue) :
    ((layer.recordExpiry key expiresAt).store key cached).cache =
      layer.cache.insert key cached := by
  rw [store, (recordExpiry_config layer key expiresAt).2]

theorem Unevicted.room {op : LayerOp} (hunevicted : layer.Unevicted (moment, op))
    (hwrite : op.write layer = some (key, value, ttl)) (hfits : layer.Fits value) :
    layer.currentSize + UInt64.ofNat value.sizeBytes ≤ layer.config.maxSizeBytes := by
  rcases hunevicted.2 key value ttl hwrite with hpolicy | hroom
  · exact hfits.resolve_left (not_not.mpr hpolicy)
  · exact hroom

/-- What a step that writes leaves cached: the value is put under its key, or nothing changes. -/
theorem cache_write {op : LayerOp} (hunevicted : layer.Unevicted (moment, op))
    (hwrite : op.write layer = some (key, value, ttl)) :
    (layer.step overflow (moment, op)).cache = layer.cache ∨
      (layer.step overflow (moment, op)).cache =
        layer.cache.insert key (cachedValue moment.now value ttl) := by
  rw [step_write hwrite]
  rcases trySet_cases overflow layer moment key value ttl with hnone | hsome
  · rw [hnone]
    exact Or.inl rfl
  · rw [hsome]
    by_cases hfits : layer.Fits value
    · rw [setWithTtl_of_room (hunevicted.room hwrite hfits)]
      exact Or.inr (cache_store layer key _ _)
    · rw [setWithTtl_of_not_fits hfits]
      exact Or.inl (recordExpiry_config layer key _).2

/-! ## Lost keys -/

/-- A step that keeps every key that it does not write over loses none. -/
theorem losesOnlyDue_of_kept {op : LayerOp}
    (h : ∀ key, op ≠ .remove key → layer.cache.contains key = true →
      (layer.step overflow (moment, op)).cache.contains key = true) :
    layer.LosesOnlyDue overflow (moment, op) := by
  intro _ key cached hremove hcached hlost
  have hcontains := h key hremove (contains_iff_exists.mpr ⟨cached, hcached⟩)
  obtain ⟨kept, hkept⟩ := contains_iff_exists.mp hcontains
  rw [hlost] at hkept
  cases hkept

theorem contains_insert_of_contains {map : Std.ExtTreeMap String CachedValue}
    (h : map.contains other = true) (key : String) (cached : CachedValue) :
    (map.insert key cached).contains other = true := by
  rw [Std.ExtTreeMap.contains_insert, h, Bool.or_true]

theorem losesOnlyDue_write {op : LayerOp} (hunevicted : layer.Unevicted (moment, op))
    (hwrite : op.write layer = some (key, value, ttl)) :
    layer.LosesOnlyDue overflow (moment, op) := by
  apply losesOnlyDue_of_kept
  intro other _ hcontains
  have hcases : (layer.step overflow (moment, op)).cache = layer.cache ∨
      (layer.step overflow (moment, op)).cache =
        layer.cache.insert key (cachedValue moment.now value ttl) := cache_write hunevicted hwrite
  rcases hcases with hsame | hinsert
  · rw [hsame]
    exact hcontains
  · rw [hinsert]
    exact contains_insert_of_contains hcontains key _

theorem losesOnlyDue_get :
    layer.LosesOnlyDue overflow (moment, .get key) ↔ layer.HeapAgrees moment.now := by
  constructor
  · intro h other cached hdue hcached
    exact h (fun h => (nomatch h)) other cached (fun h => (nomatch h)) hcached
      (getElem?_get_of_due hdue)
  · intro h _ other cached _ hcached hlost
    exact (due_of_get hcached hlost).elim (fun hdue => h other cached hdue hcached) id

theorem losesOnlyDue_evictExpired :
    layer.LosesOnlyDue overflow (moment, .evictExpired) ↔ layer.HeapAgrees moment.now := by
  constructor
  · intro h other cached hdue hcached
    exact h (fun h => (nomatch h)) other cached (fun h => (nomatch h)) hcached
      (getElem?_evictExpired_of_due hdue)
  · intro h _ other cached _ hcached hlost
    by_cases hdue : layer.DueInHeap moment.now other
    · exact h other cached hdue hcached
    · have hkept := getElem?_evictExpired_of_not hdue
      rw [hcached] at hkept
      rw [step] at hlost
      rw [hkept] at hlost
      cases hlost

theorem losesOnlyDue_iff {op : LayerOp} (hunevicted : layer.Unevicted (moment, op)) :
    layer.LosesOnlyDue overflow (moment, op) ↔
      ∀ key, op = .get key ∨ op = .evictExpired → layer.HeapAgrees moment.now := by
  cases op with
  | set key value =>
    exact iff_of_true (losesOnlyDue_write hunevicted rfl) (by simp)
  | setWithTtl key value ttl =>
    exact iff_of_true (losesOnlyDue_write hunevicted rfl) (by simp)
  | get key => exact losesOnlyDue_get.trans ⟨fun h _ _ => h, fun h => h key (Or.inl rfl)⟩
  | evictExpired =>
    exact losesOnlyDue_evictExpired.trans ⟨fun h _ _ => h, fun h => h "" (Or.inr rfl)⟩
  | remove key =>
    refine iff_of_true ?_ (by simp)
    intro _ other cached hremove hcached hlost
    have hne : key ≠ other := fun heq => hremove (by rw [heq])
    have hkept := getElem?_remove layer key other
    rw [if_neg hne, hcached] at hkept
    rw [step] at hlost
    rw [hkept] at hlost
    cases hlost
  | expire key ttl =>
    refine iff_of_true ?_ (by simp)
    apply losesOnlyDue_of_kept
    intro other _ hcontains
    show (((layer.tryExpire overflow moment key ttl).map Prod.snd).getD layer).cache.contains
      other = true
    unfold tryExpire expire
    split
    · exact hcontains
    · split
      · exact hcontains
      · exact contains_insert_of_contains hcontains key _
  | persist key =>
    refine iff_of_true ?_ (by simp)
    apply losesOnlyDue_of_kept
    intro other _ hcontains
    show (layer.persist key).2.cache.contains other = true
    unfold persist
    split
    · exact hcontains
    · exact contains_insert_of_contains hcontains key _
  | clear =>
    exact iff_of_true (fun h => absurd rfl h) (by simp)
  | evictPercentage percentage => exact absurd rfl (hunevicted.1 percentage)

/-! ## Reads and writes -/

theorem readsNothingLate (layer : CacheLayer) (op : Moment × LayerOp) :
    layer.ReadsNothingLate op := by
  intro key cached expiresAt _ hcached hexpiresAt hlate
  have hexpired : cached.isExpired op.1.now = true := by
    rw [CachedValue.isExpired, hexpiresAt]
    exact decide_eq_true hlate
  by_cases hdue : layer.DueInHeap op.1.now key
  · have hgone := getElem?_evictExpired_of_due hdue
    rw [CacheLayer.get, hgone]
  · have hkept := getElem?_evictExpired_of_not hdue
    rw [hcached] at hkept
    rw [CacheLayer.get, hkept]
    dsimp only
    rw [if_pos hexpired]

theorem ttlSeconds_eq_iff {ttl : Nat} : ttlSeconds ttl = ttl ↔ ttl < 2 ^ 63 := by
  have hsize : Int64.size = 18446744073709551616 := rfl
  rw [ttlSeconds, Int64.toInt_ofNat', Int.bmod_def, hsize]
  omega

theorem expiry_eq_iff {ttl : Nat} :
    CachedValue.expiry now ttl = now + ttl * 1000000000 ↔ ttl < 2 ^ 63 := by
  rw [CachedValue.expiry, ← ttlSeconds_eq_iff, Int.add_right_inj,
    Int.mul_eq_mul_right_iff (by decide)]

theorem cachedValue_expiresAt_eq_iff :
    (cachedValue now value ttl).expiresAt = deadline now ttl ↔
      ∀ seconds ∈ ttl, seconds < 2 ^ 63 := by
  cases ttl with
  | none => exact iff_of_true rfl fun _ h => (nomatch h)
  | some seconds =>
    show some (CachedValue.expiry now seconds) = some _ ↔ _
    rw [Option.some.injEq, expiry_eq_iff]
    exact ⟨fun h _ heq => Option.some.inj heq ▸ h, fun h => h seconds rfl⟩

/-- A write that succeeds puts its value under its key. -/
theorem getElem?_of_trySet {after : CacheLayer}
    (h : layer.trySet overflow moment key value ttl = some (.ok (), after)) :
    after.cache[key]? = some (cachedValue moment.now value ttl) := by
  rcases trySet_cases overflow layer moment key value ttl with hnone | hsome
  · rw [hnone] at h
    cases h
  · rw [hsome] at h
    rw [(setWithTtl_eq_ok (Option.some.inj h)).2, store, lookup_insert, if_pos rfl]

/-- A write that fails leaves the cache as it was. -/
theorem cache_of_trySet_error {after : CacheLayer} {error : String}
    (h : layer.trySet overflow moment key value ttl = some (.error error, after)) :
    after.cache = layer.cache := by
  rcases trySet_cases overflow layer moment key value ttl with hnone | hsome
  · rw [hnone] at h
    cases h
  · rw [hsome] at h
    have hset := Option.some.inj h
    have hfits : ¬layer.Fits value := by
      intro hfits
      have hok : (layer.setWithTtl moment.order moment.now key value ttl).1 = .ok () :=
        setWithTtl_eq_ok_iff.mpr hfits
      rw [hset] at hok
      cases hok
    rw [setWithTtl_of_not_fits hfits] at hset
    cases hset
    exact (recordExpiry_config layer key _).2

theorem writes_iff {op : LayerOp} :
    (∀ key value ttl after, op.write layer = some (key, value, ttl) →
      (layer.trySet overflow moment key value ttl = some (.ok (), after) →
        after.cache[key]?.map CachedValue.expiresAt = some (deadline moment.now ttl)) ∧
        ∀ error, layer.trySet overflow moment key value ttl = some (.error error, after) →
          after.cache = layer.cache) ↔
      ∀ key value ttl, op.write layer = some (key, value, some ttl) →
        layer.Fits value → overflow moment.now ttl = false → ttl < 2 ^ 63 := by
  constructor
  · intro h key value ttl hwrite hfits hok
    have hset : layer.trySet overflow moment key value (some ttl) =
        some (.ok (), (layer.setWithTtl moment.order moment.now key value (some ttl)).2) := by
      have hreturns : (layer.setWithTtl moment.order moment.now key value (some ttl)).1 =
          .ok () := setWithTtl_eq_ok_iff.mpr hfits
      rw [trySet_of_not (show (some ttl).any (overflow moment.now) = false from hok),
        ← hreturns]
    have hexpiry := (h key value (some ttl) _ hwrite).1 hset
    rw [getElem?_of_trySet hset, Option.map_some, Option.some.injEq,
      cachedValue_expiresAt_eq_iff] at hexpiry
    exact hexpiry ttl rfl
  · intro h key value ttl after hwrite
    refine ⟨fun hset => ?_, fun error => cache_of_trySet_error⟩
    rw [getElem?_of_trySet hset, Option.map_some, Option.some.injEq,
      cachedValue_expiresAt_eq_iff]
    intro seconds hseconds
    rw [hseconds] at hset hwrite
    unfold trySet at hset
    split at hset
    next => cases hset
    next hpanics =>
      have hreturns : (layer.setWithTtl moment.order moment.now key value (some seconds)).1 =
          .ok () := by
        rw [Option.some.inj hset]
      exact h key value seconds hwrite (setWithTtl_eq_ok_iff.mp hreturns)
        ((Bool.not_eq_true _).mp hpanics)

theorem expire_iff {op : LayerOp} :
    (∀ key ttl after, op = .expire key ttl →
      layer.tryExpire overflow moment key ttl = some (true, after) →
      after.cache[key]?.map CachedValue.expiresAt = some (deadline moment.now (some ttl))) ↔
      ∀ key ttl, op = .expire key ttl → layer.cache.contains key = true →
        overflow moment.now ttl = false → ttl < 2 ^ 63 := by
  have hexpiry {key : String} {ttl : Nat} {after : CacheLayer}
      (h : layer.expire moment.now key ttl = (true, after)) :
      after.cache[key]?.map CachedValue.expiresAt =
        some (some (CachedValue.expiry moment.now ttl)) := by
    unfold CacheLayer.expire at h
    split at h
    · cases h
    · cases h
      rw [lookup_insert, if_pos rfl]
      rfl
  constructor
  · intro h key ttl hop hcontains hok
    have htry : layer.tryExpire overflow moment key ttl =
        some (layer.expire moment.now key ttl) := by
      rw [tryExpire, if_neg fun hpanics => by rw [hok] at hpanics; cases hpanics.2]
    have hreturns : layer.expire moment.now key ttl =
        (true, (layer.expire moment.now key ttl).2) := by
      obtain ⟨cached, hcached⟩ := contains_iff_exists.mp hcontains
      unfold CacheLayer.expire
      rw [hcached]
    have hset := h key ttl _ hop (htry.trans (congrArg some hreturns))
    rw [hexpiry hreturns, Option.some.injEq, deadline, Option.map_some, Option.some.injEq,
      expiry_eq_iff] at hset
    exact hset
  · intro h key ttl after hop htry
    unfold tryExpire at htry
    split at htry
    next => cases htry
    next hpanics =>
      have hreturns := Option.some.inj htry
      have hcontains : layer.cache.contains key = true := by
        unfold CacheLayer.expire at hreturns
        split at hreturns
        next => cases hreturns
        next cached hcached => exact contains_iff_exists.mpr ⟨cached, hcached⟩
      have hok : overflow moment.now ttl = false := by
        rw [← Bool.not_eq_true]
        exact fun hpanic => hpanics ⟨hcontains, hpanic⟩
      rw [hexpiry hreturns, Option.some.injEq, deadline, Option.map_some, Option.some.injEq,
        expiry_eq_iff]
      exact h key ttl hop hcontains hok

theorem writesExpiry_iff {op : LayerOp} :
    layer.WritesExpiry overflow (moment, op) ↔
      (∀ key value ttl, op.write layer = some (key, value, some ttl) →
        layer.Fits value → overflow moment.now ttl = false → ttl < 2 ^ 63) ∧
        ∀ key ttl, op = .expire key ttl → layer.cache.contains key = true →
          overflow moment.now ttl = false → ttl < 2 ^ 63 := by
  have hpersist : ∀ key after, op = .persist key → layer.persist key = (true, after) →
      after.cache[key]?.map CachedValue.expiresAt = some none := by
    intro key after _ h
    unfold CacheLayer.persist at h
    split at h
    · cases h
    · cases h
      rw [lookup_insert, if_pos rfl]
      rfl
  refine ⟨fun h => ⟨writes_iff.mp h.1, expire_iff.mp h.2.1⟩, fun h => ?_⟩
  exact ⟨writes_iff.mpr h.1, expire_iff.mpr h.2, hpersist⟩

/-- A step without eviction keeps expiry exact exactly when the heap and the TTL are in order. -/
theorem expiryExact_iff {op : Moment × LayerOp} (hunevicted : layer.Unevicted op) :
    layer.ExpiryExact overflow op ↔ layer.ExpiryKept overflow op := by
  obtain ⟨moment, op⟩ := op
  constructor
  · intro h
    exact ⟨(losesOnlyDue_iff hunevicted).mp h.losesOnlyDue, writesExpiry_iff.mp h.writesExpiry⟩
  · intro h
    exact ⟨(losesOnlyDue_iff hunevicted).mpr h.1, readsNothingLate layer _,
      writesExpiry_iff.mpr h.2⟩

/-! ## Where the heap comes to disagree -/

/-- No expiry in the heap is earlier than that of the value. -/
def NoStale (layer : CacheLayer) : Prop :=
  ∀ entry ∈ layer.ttlManager, ∀ cached, layer.cache[entry.key]? = some cached →
    cached.Due entry.expiresAt

/-- A write leaves no expiry in the heap that is earlier than that of the value: what the heap holds
of a key that is written over is no earlier than the new expiry, and the expiry of a write that
fails is no earlier than the one the key has. -/
def LeavesNoStale (overflow : ChronoOverflow) (layer : CacheLayer) (op : Moment × LayerOp) : Prop :=
  ∀ key value ttl, op.2.write layer = some (key, value, ttl) →
    ttl.any (overflow op.1.now) = false →
    (layer.Fits value → ∀ entry ∈ layer.ttlManager, entry.key = key →
      (cachedValue op.1.now value ttl).Due entry.expiresAt) ∧
      (¬layer.Fits value → ∀ expiresAt ∈ (cachedValue op.1.now value ttl).expiresAt,
        ∀ cached, layer.cache[key]? = some cached → cached.Due expiresAt)

variable {after : CacheLayer}

theorem NoStale.heapAgrees (h : layer.NoStale) (now : DateTime) : layer.HeapAgrees now := by
  rintro key cached ⟨entry, hmem, hdue, hkey⟩ hcached
  rw [← hkey] at hcached
  obtain ⟨expiresAt, hexpiresAt, hle⟩ := h entry hmem cached hcached
  exact ⟨expiresAt, hexpiresAt, hle.trans hdue⟩

theorem noStale_new (config : CacheConfig) : (new config).NoStale := by
  intro entry hmem
  cases hmem

theorem NoStale.of_le (h : layer.NoStale)
    (hheap : ∀ entry ∈ after.ttlManager, entry ∈ layer.ttlManager)
    (hcache : ∀ (key : String) (cached : CachedValue), after.cache[key]? = some cached →
      ∃ old : CachedValue, layer.cache[key]? = some old ∧
        old.expiresAt = cached.expiresAt) : after.NoStale := by
  intro entry hmem cached hcached
  obtain ⟨old, hold, hsame⟩ := hcache entry.key cached hcached
  obtain ⟨expiresAt, hexpiresAt, hle⟩ := h entry (hheap entry hmem) old hold
  exact ⟨expiresAt, hsame ▸ hexpiresAt, hle⟩

/-- A value that is put under a key, with what the heap then holds of the key. -/
theorem NoStale.insert (h : layer.NoStale) {heap : List ExpirationEntry}
    (hcache : after.cache = layer.cache.insert key cached) (hafter : after.ttlManager = heap)
    (hown : ∀ entry ∈ heap, entry.key = key → cached.Due entry.expiresAt)
    (hother : ∀ entry ∈ heap, entry.key ≠ key → entry ∈ layer.ttlManager) : after.NoStale := by
  intro entry hmem own hlookup
  rw [hafter] at hmem
  rw [hcache, lookup_insert] at hlookup
  split at hlookup
  next hkey =>
    cases hlookup
    exact hown entry hmem hkey.symm
  next hkey => exact h entry (hother entry hmem (Ne.symm hkey)) own hlookup

theorem NoStale.evictExpired (h : layer.NoStale) (now : DateTime) :
    (layer.evictExpired now).NoStale := by
  apply h.of_le
  · intro entry hmem
    unfold CacheLayer.evictExpired at hmem
    dsimp only at hmem
    rw [(takeAll_config _ _).2] at hmem
    exact (List.mem_filter.mp hmem).1
  · intro key cached hcached
    exact ⟨cached, (getElem?_takeAll hcached).1, rfl⟩

theorem NoStale.remove (h : layer.NoStale) (key : String) : (layer.remove key).2.NoStale := by
  apply h.of_le
  · intro entry hmem
    unfold CacheLayer.remove at hmem
    split at hmem
    · have hfiltered : entry ∈ (layer.take key).ttlManager.filter _ := hmem
      rw [(take_config layer key).2] at hfiltered
      exact (List.mem_filter.mp hfiltered).1
    · exact hmem
  · intro other cached hcached
    rw [getElem?_remove] at hcached
    split at hcached
    · cases hcached
    · exact ⟨cached, hcached, rfl⟩

theorem NoStale.get (h : layer.NoStale) (now : DateTime) (key : String) :
    (layer.get now key).2.NoStale := by
  have hexpired := h.evictExpired now
  unfold CacheLayer.get
  dsimp only
  split
  next => exact hexpired
  next cached hcached =>
    split
    · exact hexpired.remove key
    · apply hexpired.of_le
      · intro entry hmem
        exact hmem
      · intro other own hown
        rw [lookup_insert] at hown
        split at hown
        next heq =>
          cases hown
          exact ⟨cached, heq ▸ hcached, rfl⟩
        next => exact ⟨own, hown, rfl⟩

theorem NoStale.expire (h : layer.NoStale) (now : DateTime) (key : String) (ttl : Nat) :
    (layer.expire now key ttl).2.NoStale := by
  unfold CacheLayer.expire
  split
  next => exact h
  next cached _ =>
    apply h.insert rfl rfl
    · intro entry hmem hkey
      rcases List.mem_cons.mp hmem with hnew | hold
      · rw [hnew]
        exact ⟨_, rfl, le_refl _⟩
      · exact absurd hkey (of_decide_eq_true (List.mem_filter.mp hold).2)
    · intro entry hmem hkey
      rcases List.mem_cons.mp hmem with hnew | hold
      · exact absurd (congrArg ExpirationEntry.key hnew) hkey
      · exact (List.mem_filter.mp hold).1

theorem NoStale.persist (h : layer.NoStale) (key : String) :
    (layer.persist key).2.NoStale := by
  unfold CacheLayer.persist
  split
  next => exact h
  next cached _ =>
    apply h.insert rfl rfl
    · intro entry hmem hkey
      exact absurd hkey (of_decide_eq_true (List.mem_filter.mp hmem).2)
    · intro entry hmem _
      exact (List.mem_filter.mp hmem).1

/-- What the heap holds after a write. -/
theorem mem_recordExpiry {expiresAt : Option DateTime} {entry : ExpirationEntry} :
    entry ∈ (layer.recordExpiry key expiresAt).ttlManager ↔
      (entry.key = key ∧ expiresAt = some entry.expiresAt) ∨ entry ∈ layer.ttlManager := by
  unfold recordExpiry
  split
  next expiresAt =>
    rw [List.mem_cons, Option.some.injEq]
    refine or_congr_left ⟨fun heq => heq ▸ ⟨rfl, rfl⟩, fun heq => ?_⟩
    obtain ⟨own, expiry⟩ := entry
    obtain ⟨hkey, hexpiry⟩ := heq
    rw [hexpiry, ← hkey]
  next => simp

theorem NoStale.write (h : layer.NoStale) {op : LayerOp}
    (hunevicted : layer.Unevicted (moment, op))
    (hleaves : layer.LeavesNoStale overflow (moment, op))
    (hwrite : op.write layer = some (key, value, ttl)) :
    (layer.step overflow (moment, op)).NoStale := by
  rw [step_write hwrite, trySet]
  split
  next => exact h
  next hpanics =>
    obtain ⟨hfit, hrefused⟩ := hleaves key value ttl hwrite ((Bool.not_eq_true _).mp hpanics)
    rw [Option.map_some, Option.getD_some]
    by_cases hfits : layer.Fits value
    · rw [setWithTtl_of_room (hunevicted.room hwrite hfits)]
      apply h.insert (cache_store layer key _ _) rfl
      · intro entry hmem hkey
        rcases mem_recordExpiry.mp hmem with hnew | hold
        · exact ⟨entry.expiresAt, hnew.2, le_refl _⟩
        · exact hfit hfits entry hold hkey
      · intro entry hmem hkey
        exact (mem_recordExpiry.mp hmem).resolve_left fun hnew => hkey hnew.1
    · rw [setWithTtl_of_not_fits hfits]
      intro entry hmem cached hcached
      rw [(recordExpiry_config layer key _).2] at hcached
      rcases mem_recordExpiry.mp hmem with hnew | hold
      · rw [hnew.1] at hcached
        exact hrefused hfits entry.expiresAt hnew.2 cached hcached
      · exact h entry hold cached hcached

theorem NoStale.step (h : layer.NoStale) {op : Moment × LayerOp} (hunevicted : layer.Unevicted op)
    (hleaves : layer.LeavesNoStale overflow op) : (layer.step overflow op).NoStale := by
  obtain ⟨moment, op⟩ := op
  cases op with
  | set key value => exact h.write hunevicted hleaves rfl
  | setWithTtl key value ttl => exact h.write hunevicted hleaves rfl
  | get key => exact h.get moment.now key
  | remove key => exact h.remove key
  | expire key ttl =>
    show (((layer.tryExpire overflow moment key ttl).map Prod.snd).getD layer).NoStale
    unfold tryExpire
    split
    · exact h
    · exact h.expire moment.now key ttl
  | persist key => exact h.persist key
  | clear => exact noStale_new layer.config
  | evictPercentage percentage => exact absurd rfl (hunevicted.1 percentage)
  | evictExpired => exact h.evictExpired moment.now

/-! ## Runs -/

/-- Along a run without eviction no expiry is premature and none is lost exactly when the heap
agrees with the cache wherever it is emptied of what is due, and every TTL that is stored has 63
bits.  The heap agrees as long as no write leaves an expiry in it that is earlier than that of the
value. -/
theorem always_expiryExact_iff (overflow : ChronoOverflow) {config : CacheConfig}
    {ops : List (Moment × LayerOp)} (h : MeetsAlong (step overflow) Unevicted (new config) ops) :
    (MeetsAlong (step overflow) (ExpiryExact overflow) (new config) ops ↔
        MeetsAlong (step overflow) (ExpiryKept overflow) (new config) ops) ∧
      (MeetsAlong (step overflow) (LeavesNoStale overflow) (new config) ops →
        MeetsAlong (step overflow) (fun layer op => layer.HeapAgrees op.1.now) (new config)
          ops) := by
  constructor
  · apply MeetsAlong.congr
    exact h.imp (I := fun _ => True) (fun _ _ => trivial) (fun _ => expiryExact_iff) trivial
  · intro hleaves
    have hboth := (meetsAlong_and (Q := LeavesNoStale overflow)).mpr ⟨h, hleaves⟩
    exact hboth.imp (I := NoStale) (fun hstale hop => hstale.step hop.1 hop.2)
      (fun hstale _ => hstale.heapAgrees _) (noStale_new config)

def roomy : CacheConfig :=
  { maxSizeBytes := 1000, evictionPolicy := .noEviction, defaultTtl := none }

/-- The clock at a number of seconds. -/
def second (seconds : Int) : Moment := ⟨seconds * 1000000000, .sorted⟩

theorem unevicted_roomy {op : Moment × LayerOp}
    (h : ∀ percentage, op.2 ≠ .evictPercentage percentage)
    (hpolicy : layer.config.evictionPolicy = .noEviction) : layer.Unevicted op :=
  ⟨h, fun _ _ _ _ => Or.inl hpolicy⟩

/-- A value that expires, and is read before and after. -/
def readTwice : List (Moment × LayerOp) :=
  [(second 0, .setWithTtl "a" (.string (.int64 1)) (some 5)), (second 3, .get "a"),
    (second 6, .get "a")]

theorem always_expiryExact_iff_readTwice :
    MeetsAlong (step fun _ _ => false) (ExpiryExact fun _ _ => false) (new roomy) readTwice ↔
      MeetsAlong (step fun _ _ => false) (ExpiryKept fun _ _ => false) (new roomy) readTwice := by
  have hunevicted : MeetsAlong (step fun _ _ => false) Unevicted (new roomy) readTwice := by
    refine ⟨?_, ?_, ?_, trivial⟩
    · exact unevicted_roomy (fun _ h => (nomatch h)) rfl
    · exact unevicted_roomy (fun _ h => (nomatch h)) (by decide)
    · exact unevicted_roomy (fun _ h => (nomatch h)) (by decide)
  exact (always_expiryExact_iff _ hunevicted).1

/-- A value with an expiry that is written over by one without. -/
def writtenOver : List (Moment × LayerOp) :=
  [(second 0, .setWithTtl "a" (.string (.int64 1)) (some 5)),
    (second 1, .setWithTtl "a" (.string (.int64 2)) none), (second 6, .get "a")]

/-- It goes when the first would have expired. -/
theorem not_expiryExact :
    MeetsAlong (step fun _ _ => false) Unevicted (new roomy) writtenOver ∧
      ¬MeetsAlong (step fun _ _ => false) (ExpiryExact fun _ _ => false) (new roomy)
        writtenOver := by
  constructor
  · refine ⟨?_, ?_, ?_, trivial⟩
    · exact unevicted_roomy (fun _ h => (nomatch h)) rfl
    · exact unevicted_roomy (fun _ h => (nomatch h)) (by decide)
    · exact unevicted_roomy (fun _ h => (nomatch h)) (by decide)
  · rintro ⟨_, _, hexact, _⟩
    obtain ⟨expiresAt, hexpiresAt, _⟩ := hexact.losesOnlyDue (fun h => (nomatch h)) "a"
      (.new 1000000000 (.string (.int64 2))) (fun h => (nomatch h)) rfl rfl
    cases hexpiresAt

end CacheLayer

end VedDb
