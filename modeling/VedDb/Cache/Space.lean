import VedDb.Cache.Views

/-!
# Want of space

A cache that may not evict refuses what does not fit.  By then a write-through is already stored,
and a read that missed has its answer.  A refused value leaves its expiry behind; that changes no
later read as long as the value that is still cached expires no later.
-/

namespace VedDb

open HybridStorageEngine (makeCacheKey documentToCacheData)
open PersistentLayer (makeDocumentKey)

namespace CacheLayer

/-! ## Layers that differ in their expiry heap -/

/-- The layers cache the same values. -/
structure SameCache (a b : CacheLayer) : Prop where
  cache : a.cache = b.cache
  size : a.currentSize = b.currentSize
  config : a.config = b.config

theorem SameCache.refl (layer : CacheLayer) : layer.SameCache layer := ⟨rfl, rfl, rfl⟩

theorem SameCache.symm {a b : CacheLayer} (h : a.SameCache b) : b.SameCache a :=
  ⟨h.cache.symm, h.size.symm, h.config.symm⟩

theorem SameCache.trans {a b c : CacheLayer} (hab : a.SameCache b) (hbc : b.SameCache c) :
    a.SameCache c :=
  ⟨hab.cache.trans hbc.cache, hab.size.trans hbc.size, hab.config.trans hbc.config⟩

section

variable {a b : CacheLayer} (h : a.SameCache b)

include h

theorem SameCache.take (key : String) : (a.take key).SameCache (b.take key) := by
  unfold CacheLayer.take
  rw [h.cache]
  cases b.cache[key]? with
  | none => exact h
  | some cached =>
    refine ⟨rfl, ?_, h.config⟩
    show a.currentSize - cached.sizeBytes = b.currentSize - cached.sizeBytes
    rw [h.size]

theorem SameCache.takeAll (entries : List ExpirationEntry) :
    (entries.foldl (fun layer entry => layer.take entry.key) a).SameCache
      (entries.foldl (fun layer entry => layer.take entry.key) b) := by
  induction entries generalizing a b with
  | nil => exact h
  | cons entry entries ih => exact ih (h.take entry.key)

theorem SameCache.fits (value : CacheData) : a.Fits value ↔ b.Fits value := by
  rw [Fits, Fits, h.size, h.config]

end

theorem take_of_none {layer : CacheLayer} {key : String} (h : layer.cache[key]? = none) :
    layer.take key = layer := by
  unfold take
  rw [h]

theorem take_of_some {layer : CacheLayer} {key : String} {cached : CachedValue}
    (h : layer.cache[key]? = some cached) :
    layer.take key = { layer with
      cache := layer.cache.erase key
      currentSize := layer.currentSize - cached.sizeBytes } := by
  unfold take
  rw [h]

theorem take_take_self (layer : CacheLayer) (key : String) :
    (layer.take key).take key = layer.take key := by
  apply take_of_none
  rw [getElem?_take, if_pos rfl]

theorem take_comm (layer : CacheLayer) (key other : String) :
    (layer.take key).take other = (layer.take other).take key := by
  by_cases hkey : key = other
  · rw [hkey]
  have hother : (layer.take key).cache[other]? = layer.cache[other]? := by
    rw [getElem?_take, if_neg hkey]
  have hown : (layer.take other).cache[key]? = layer.cache[key]? := by
    rw [getElem?_take, if_neg (Ne.symm hkey)]
  cases hcached : layer.cache[key]? with
  | none =>
    rw [take_of_none hcached, take_of_none (hown.trans hcached)]
  | some cached =>
    cases hcached' : layer.cache[other]? with
    | none =>
      rw [take_of_none (hother.trans hcached'), take_of_none hcached']
    | some cached' =>
      rw [take_of_some (hother.trans hcached'), take_of_some (hown.trans hcached),
        take_of_some hcached, take_of_some hcached']
      have herase : (layer.cache.erase key).erase other =
          (layer.cache.erase other).erase key := by
        apply Std.ExtTreeMap.ext_getElem?
        intro name
        simp only [Std.ExtTreeMap.getElem?_erase]
        split
        · split
          · rfl
          · rfl
        · rfl
      have hsize : layer.currentSize - cached.sizeBytes - cached'.sizeBytes =
          layer.currentSize - cached'.sizeBytes - cached.sizeBytes := by
        grind
      simp only [herase, hsize]

-- A key that is taken later may as well be taken at once.
theorem takeAll_take {entries : List ExpirationEntry} {key : String}
    (h : ∃ entry ∈ entries, entry.key = key) (layer : CacheLayer) :
    entries.foldl (fun layer entry => layer.take entry.key) (layer.take key) =
      entries.foldl (fun layer entry => layer.take entry.key) layer := by
  induction entries generalizing layer with
  | nil =>
    obtain ⟨entry, hentry, -⟩ := h
    cases hentry
  | cons own entries ih =>
    rw [List.foldl_cons, List.foldl_cons]
    by_cases hown : own.key = key
    · rw [hown, take_take_self]
    · obtain ⟨entry, hentry, hkey⟩ := h
      have hrest : entry ∈ entries := by
        refine (List.mem_cons.mp hentry).resolve_left fun heq => hown ?_
        rw [← heq]
        exact hkey
      rw [take_comm, ih ⟨entry, hrest, hkey⟩]

/-! ## Recorded expiries -/

/-- The heap holds the expiry of every value that has one. -/
def Recorded (layer : CacheLayer) : Prop :=
  ∀ key cached expiresAt, layer.cache[key]? = some cached → cached.expiresAt = some expiresAt →
    ∃ entry ∈ layer.ttlManager, entry.key = key ∧ entry.expiresAt = expiresAt

def ExpiresBy (layer : CacheLayer) (key : String) (time : DateTime) : Prop :=
  ∀ cached, layer.cache[key]? = some cached →
    ∃ expiresAt, cached.expiresAt = some expiresAt ∧ expiresAt ≤ time

-- What expiry leaves cached: what is left when the entries that are due are taken.
theorem evictExpired_same (layer layer' : CacheLayer) (h : layer.SameCache layer')
    (now : DateTime) :
    (layer'.evictExpired now).SameCache
      ((layer'.ttlManager.filter fun entry => entry.expiresAt ≤ now).foldl
        (fun layer entry => layer.take entry.key) layer) := by
  have hheap : SameCache { layer' with
      ttlManager := layer'.ttlManager.filter fun entry => now < entry.expiresAt } layer :=
    ⟨h.cache.symm, h.size.symm, h.config.symm⟩
  exact hheap.takeAll _

theorem evictExpired_recordExpiry {layer : CacheLayer} {key : String} {expiresAt : DateTime}
    (hrecorded : layer.Recorded) (hkey : layer.ExpiresBy key expiresAt) (now : DateTime) :
    ((layer.recordExpiry key (some expiresAt)).evictExpired now).SameCache
      (layer.evictExpired now) := by
  have hbefore := evictExpired_same layer layer (.refl layer) now
  have hafter := evictExpired_same layer (layer.recordExpiry key (some expiresAt)) ⟨rfl, rfl, rfl⟩
    now
  let due := layer.ttlManager.filter fun entry => entry.expiresAt ≤ now
  have hdue : ((layer.recordExpiry key (some expiresAt)).ttlManager.filter fun entry =>
      entry.expiresAt ≤ now).foldl (fun layer entry => layer.take entry.key) layer =
      due.foldl (fun layer entry => layer.take entry.key) layer := by
    show (({ key := key, expiresAt := expiresAt } :: layer.ttlManager).filter fun entry =>
      entry.expiresAt ≤ now).foldl (fun layer entry => layer.take entry.key) layer = _
    by_cases hnow : expiresAt ≤ now
    · rw [List.filter_cons_of_pos (by simpa using hnow), List.foldl_cons]
      cases hcached : layer.cache[key]? with
      | none => rw [take_of_none hcached]
      | some cached =>
        obtain ⟨own, hown, hle⟩ := hkey cached hcached
        obtain ⟨entry, hentry, hname, hexpiry⟩ := hrecorded key cached own hcached hown
        have hexpired : entry ∈ due := by
          rw [List.mem_filter, decide_eq_true_eq, hexpiry]
          exact ⟨hentry, hle.trans hnow⟩
        exact takeAll_take ⟨entry, hexpired, hname⟩ layer
    · rw [List.filter_cons_of_neg (by simpa using hnow)]
  rw [hdue] at hafter
  exact hafter.trans hbefore.symm

/-- Layers that are left with the same values after expiry answer alike. -/
theorem get_same {a b : CacheLayer} {now : DateTime}
    (h : (a.evictExpired now).SameCache (b.evictExpired now)) (key : String) :
    (a.get now key).1 = (b.get now key).1 ∧ (a.get now key).2.SameCache (b.get now key).2 := by
  unfold get
  dsimp only
  rw [h.cache]
  cases hcached : (b.evictExpired now).cache[key]? with
  | none => exact ⟨rfl, h⟩
  | some cached =>
    dsimp only
    by_cases hexpired : cached.isExpired now = true
    · rw [if_pos hexpired, if_pos hexpired]
      refine ⟨rfl, ?_⟩
      have htake := h.take key
      unfold remove
      rw [h.cache]
      split
      · exact ⟨htake.cache, htake.size, htake.config⟩
      · exact h
    · rw [if_neg hexpired, if_neg hexpired]
      exact ⟨rfl, rfl, h.size, h.config⟩

/-! ## What the operations of the layer keep -/

theorem take_config (layer : CacheLayer) (key : String) :
    (layer.take key).config = layer.config ∧ (layer.take key).ttlManager = layer.ttlManager := by
  unfold take
  split
  · exact ⟨rfl, rfl⟩
  · exact ⟨rfl, rfl⟩

theorem takeAll_config (entries : List ExpirationEntry) (layer : CacheLayer) :
    (entries.foldl (fun layer entry => layer.take entry.key) layer).config = layer.config ∧
      (entries.foldl (fun layer entry => layer.take entry.key) layer).ttlManager =
        layer.ttlManager := by
  induction entries generalizing layer with
  | nil => exact ⟨rfl, rfl⟩
  | cons entry entries ih =>
    obtain ⟨hconfig, hheap⟩ := take_config layer entry.key
    exact ⟨(ih _).1.trans hconfig, (ih _).2.trans hheap⟩

-- What is still cached is none of the keys that were taken.
theorem getElem?_takeAll {entries : List ExpirationEntry} {layer : CacheLayer} {key : String}
    {cached : CachedValue}
    (h : (entries.foldl (fun layer entry => layer.take entry.key) layer).cache[key]? =
      some cached) :
    layer.cache[key]? = some cached ∧ ∀ entry ∈ entries, entry.key ≠ key := by
  induction entries generalizing layer with
  | nil => exact ⟨h, nofun⟩
  | cons own entries ih =>
    obtain ⟨hcached, hrest⟩ := ih h
    rw [getElem?_take] at hcached
    by_cases hown : own.key = key
    · rw [if_pos hown] at hcached
      cases hcached
    · rw [if_neg hown] at hcached
      exact ⟨hcached, List.forall_mem_cons.mpr ⟨hown, hrest⟩⟩

theorem Recorded.evictExpired {layer : CacheLayer} (h : layer.Recorded) (now : DateTime) :
    (layer.evictExpired now).Recorded := by
  intro key cached expiresAt hcached hexpiry
  obtain ⟨hold, hnot⟩ := getElem?_takeAll hcached
  obtain ⟨entry, hentry, hkey, htime⟩ := h key cached expiresAt hold hexpiry
  refine ⟨entry, ?_, hkey, htime⟩
  unfold CacheLayer.evictExpired
  dsimp only
  rw [(takeAll_config _ _).2, List.mem_filter, decide_eq_true_eq, ← not_le]
  refine ⟨hentry, fun hdue => hnot entry ?_ hkey⟩
  rw [List.mem_filter, decide_eq_true_eq]
  exact ⟨hentry, hdue⟩

theorem evictExpired_config (layer : CacheLayer) (now : DateTime) :
    (layer.evictExpired now).config = layer.config :=
  (takeAll_config _ _).1

theorem Recorded.remove {layer : CacheLayer} (h : layer.Recorded) (key : String) :
    (layer.remove key).2.Recorded := by
  unfold CacheLayer.remove
  split
  · intro other cached expiresAt hcached hexpiry
    have htaken : (layer.take key).cache[other]? = some cached := hcached
    rw [getElem?_take] at htaken
    by_cases hkey : key = other
    · rw [if_pos hkey] at htaken
      cases htaken
    · rw [if_neg hkey] at htaken
      obtain ⟨entry, hentry, hname, htime⟩ := h other cached expiresAt htaken hexpiry
      refine ⟨entry, ?_, hname, htime⟩
      show entry ∈ (layer.take key).ttlManager.filter _
      rw [(take_config layer key).2, List.mem_filter, decide_eq_true_eq, hname]
      exact ⟨hentry, Ne.symm hkey⟩
  · exact h

theorem remove_config (layer : CacheLayer) (key : String) :
    (layer.remove key).2.config = layer.config := by
  unfold remove
  split
  · exact (take_config layer key).1
  · rfl

theorem Recorded.recordExpiry {layer : CacheLayer} (h : layer.Recorded) (key : String)
    (expiresAt : Option DateTime) : (layer.recordExpiry key expiresAt).Recorded := by
  unfold CacheLayer.recordExpiry
  split
  · intro other cached own hcached hexpiry
    obtain ⟨entry, hentry, hown⟩ := h other cached own hcached hexpiry
    exact ⟨entry, List.mem_cons_of_mem _ hentry, hown⟩
  · exact h

theorem recordExpiry_config (layer : CacheLayer) (key : String) (expiresAt : Option DateTime) :
    (layer.recordExpiry key expiresAt).config = layer.config ∧
      (layer.recordExpiry key expiresAt).cache = layer.cache := by
  unfold recordExpiry
  split
  · exact ⟨rfl, rfl⟩
  · exact ⟨rfl, rfl⟩

theorem evictVictims_config (target : UInt64) (victims : List String) (evicted : UInt64)
    (layer : CacheLayer) : (evictVictims target victims evicted layer).config = layer.config := by
  induction victims generalizing evicted layer with
  | nil => rfl
  | cons key victims ih =>
    rw [evictVictims]
    split
    · rfl
    · split
      · exact ih evicted layer
      · exact (ih _ _).trans (take_config layer key).1

theorem evictByPolicy_noEviction {order : CacheOrder} {layer : CacheLayer} {now : DateTime}
    {target : UInt64} (h : layer.config.evictionPolicy = .noEviction) :
    layer.evictByPolicy order now target = layer := by
  unfold evictByPolicy EvictionPolicy.selectVictims
  simp only [h, List.take_nil, List.map_nil]
  rfl

theorem ensureSpace_config (order : CacheOrder) (layer : CacheLayer) (now : DateTime)
    (requiredSize : UInt64) :
    (layer.ensureSpace order now requiredSize).2.config = layer.config := by
  unfold ensureSpace
  split
  · rfl
  · split
    · rfl
    · exact evictVictims_config _ _ _ _

theorem setWithTtl_config (order : CacheOrder) (layer : CacheLayer) (now : DateTime) (key : String)
    (value : CacheData) (ttl : Option Nat) :
    (layer.setWithTtl order now key value ttl).2.config = layer.config := by
  let cached := cachedValue now value ttl
  have hspace := ensureSpace_config order (layer.recordExpiry key cached.expiresAt) now
    cached.sizeBytes
  rw [(recordExpiry_config layer key _).1] at hspace
  unfold setWithTtl
  dsimp only
  split
  · next heq =>
      rw [heq] at hspace
      exact hspace
  · next heq =>
      rw [heq] at hspace
      exact hspace

-- Where nothing is evicted, a value that is stored has its expiry in the heap.
theorem Recorded.setWithTtl {order : CacheOrder} {layer : CacheLayer} (h : layer.Recorded)
    (hpolicy : layer.config.evictionPolicy = .noEviction) (now : DateTime) (key : String)
    (value : CacheData) (ttl : Option Nat) :
    (layer.setWithTtl order now key value ttl).2.Recorded := by
  have hrecord := h.recordExpiry key (cachedValue now value ttl).expiresAt
  by_cases hfits : layer.Fits value
  · have hfits' : (layer.recordExpiry key (cachedValue now value ttl).expiresAt).Fits value :=
      fits_recordExpiry.mpr hfits
    have hroom := hfits'.resolve_left (not_not.mpr (by
      rw [(recordExpiry_config layer key _).1]
      exact hpolicy))
    unfold CacheLayer.setWithTtl
    dsimp only
    rw [ensureSpace, cachedValue_sizeBytes, if_pos hroom]
    intro other cached expiresAt hcached hexpiry
    have hread : ((layer.recordExpiry key (cachedValue now value ttl).expiresAt).cache.insert key
        (cachedValue now value ttl))[other]? = some cached := hcached
    rw [lookup_insert] at hread
    by_cases hkey : key = other
    · rw [if_pos hkey, Option.some.injEq] at hread
      refine ⟨{ key := key, expiresAt := expiresAt }, ?_, hkey, rfl⟩
      show _ ∈ (layer.recordExpiry key (cachedValue now value ttl).expiresAt).ttlManager
      rw [hread, hexpiry]
      exact List.mem_cons_self
    · rw [if_neg hkey] at hread
      exact hrecord other cached expiresAt hread hexpiry
  · rw [setWithTtl_of_not_fits hfits]
    exact hrecord

/-! ## Sound layers -/

/-- Documents are cached as hashes, and where nothing is evicted the heap holds every expiry. -/
structure Sound (layer : CacheLayer) : Prop where
  hashes : ∀ key data, layer.peek key = some data → ∃ fields, data = .hash fields
  recorded : layer.config.evictionPolicy = .noEviction → layer.Recorded

theorem sound_new (config : CacheConfig) : (new config).Sound where
  hashes key data hdata := by
    rw [peek_new] at hdata
    cases hdata
  recorded _ key cached expiresAt hcached := by
    have hnone : (∅ : Std.ExtTreeMap String CachedValue)[key]? = none :=
      Std.ExtTreeMap.getElem?_empty
    cases hnone.symm.trans hcached

theorem sound_clear (layer : CacheLayer) : layer.clear.Sound where
  hashes key data hdata := by
    rw [peek_clear] at hdata
    cases hdata
  recorded _ key cached expiresAt hcached := by
    have hnone : (∅ : Std.ExtTreeMap String CachedValue)[key]? = none :=
      Std.ExtTreeMap.getElem?_empty
    cases hnone.symm.trans hcached

namespace Sound

variable {layer layer' : CacheLayer} (h : layer.Sound)

include h

theorem of_covers (hcovers : layer.Covers layer') (hconfig : layer'.config = layer.config)
    (hrecorded : layer.Recorded → layer'.Recorded) : layer'.Sound where
  hashes key data hdata := h.hashes key data (hcovers key data hdata)
  recorded hpolicy := hrecorded (h.recorded (hconfig ▸ hpolicy))

theorem evictExpired (now : DateTime) : (layer.evictExpired now).Sound :=
  h.of_covers (covers_evictExpired layer now) (evictExpired_config layer now) (·.evictExpired now)

theorem remove (key : String) : (layer.remove key).2.Sound :=
  h.of_covers (covers_remove layer key) (remove_config layer key) (·.remove key)

theorem evictByPolicy (order : CacheOrder) (now : DateTime) (target : UInt64) :
    (layer.evictByPolicy order now target).Sound where
  hashes key data hdata := h.hashes key data (covers_evictByPolicy order layer now target key data
    hdata)
  recorded hpolicy := by
    have hconfig : layer.config.evictionPolicy = .noEviction := by
      rw [← hpolicy]
      exact congrArg CacheConfig.evictionPolicy (evictVictims_config target _ 0 layer).symm
    rw [evictByPolicy_noEviction hconfig]
    exact h.recorded hconfig

theorem get (now : DateTime) (key : String) : (layer.get now key).2.Sound := by
  have hexpired := h.evictExpired now
  unfold CacheLayer.get
  dsimp only
  cases hcached : (layer.evictExpired now).cache[key]? with
  | none => exact hexpired
  | some cached =>
    dsimp only
    split
    · exact hexpired.remove key
    · refine hexpired.of_covers ?_ rfl ?_
      · intro other data hdata
        rw [peek_insert] at hdata
        by_cases hkey : key = other
        · rw [if_pos hkey] at hdata
          rw [peek, ← hkey, hcached]
          exact hdata
        · rw [if_neg hkey] at hdata
          exact hdata
      · intro hrecorded other own expiresAt hown hexpiry
        have hread : ((layer.evictExpired now).cache.insert key (cached.markAccessed now))[other]? =
            some own := hown
        rw [lookup_insert] at hread
        by_cases hkey : key = other
        · rw [if_pos hkey, Option.some.injEq] at hread
          rw [← hread] at hexpiry
          exact hrecorded other cached expiresAt (hkey ▸ hcached) hexpiry
        · rw [if_neg hkey] at hread
          exact hrecorded other own expiresAt hread hexpiry

-- Only hashes are put into the cache.
theorem setWithTtl (order : CacheOrder) (now : DateTime) (key : String) (fields : Fields)
    (ttl : Option Nat) : (layer.setWithTtl order now key (.hash fields) ttl).2.Sound where
  hashes other data hdata := by
    obtain ⟨-, hvalue⟩ | hold := peek_setWithTtl hdata
    · exact ⟨fields, hvalue⟩
    · exact h.hashes other data hold
  recorded hpolicy := by
    rw [setWithTtl_config] at hpolicy
    exact (h.recorded hpolicy).setWithTtl hpolicy now key (.hash fields) ttl

end Sound

end CacheLayer

namespace CachedEngine

variable {json : DocumentJson} {catalogue : CatalogueJson} {e : CachedEngine}

theorem sound_setDocument {layer : CacheLayer} (h : layer.Sound) (moment : Moment)
    (collection : String) (docId : DocumentId) (doc : Document) (schema : Schema) :
    (setDocument layer moment collection docId doc schema).2.Sound := by
  obtain ⟨fields, hfields, -⟩ := documentToCacheData_hash doc schema
  unfold setDocument
  rw [hfields]
  exact h.setWithTtl moment.order moment.now _ fields _

theorem sound_updateDocument (h : e.cacheLayer.Sound) (moment : Moment) (collection : String)
    (docId : DocumentId) (doc : Document) :
    (e.updateDocument moment.ops json moment.now collection docId doc).2.cacheLayer.Sound := by
  have hset (schema : Schema) := sound_setDocument h moment collection docId doc schema
  obtain huncached | ⟨schema, hschema, hcached⟩ := uncached_or_cached e collection
  · rw [updateDocument_uncached huncached]
    cases e.persistentLayer.insertDocument json collection docId doc with
    | error error => exact h
    | ok layer => exact h
  cases hstrategy : schema.cacheConfig.strategy with
  | none => exact absurd hstrategy hcached
  | writeThrough =>
    cases hinsert : e.persistentLayer.insertDocument json collection docId doc with
    | error error =>
      rw [updateDocument_writeThrough_error hschema hstrategy hinsert]
      exact h
    | ok layer =>
      rw [updateDocument_writeThrough hschema hstrategy hinsert]
      exact hset schema
  | writeBehind delayMs =>
    by_cases hfits : e.cacheLayer.Fits (documentToCacheData doc schema)
    · rw [updateDocument_writeBehind hschema hstrategy hfits]
      exact hset schema
    · rw [updateDocument_writeBehind_error hschema hstrategy hfits]
      exact hset schema
  | readThrough =>
    cases hinsert : e.persistentLayer.insertDocument json collection docId doc with
    | error error =>
      rw [updateDocument_readThrough_error hschema hstrategy hinsert]
      exact h
    | ok layer =>
      rw [updateDocument_readThrough hschema hstrategy hinsert]
      exact h.remove _

theorem sound_deleteDocument (h : e.cacheLayer.Sound) (moment : Moment) (collection : String)
    (docId : DocumentId) :
    (e.deleteDocument moment.ops moment.now collection docId).2.cacheLayer.Sound := by
  obtain huncached | ⟨schema, hschema, hcached⟩ := uncached_or_cached e collection
  · rw [deleteDocument_uncached huncached]
    exact h
  · by_cases hsync : ∀ delayMs, schema.cacheConfig.strategy ≠ .writeBehind delayMs
    · rw [deleteDocument_synchronous hschema hcached hsync]
      exact h.remove _
    · simp only [ne_eq, not_forall, not_not] at hsync
      obtain ⟨delayMs, hstrategy⟩ := hsync
      rw [deleteDocument_writeBehind hschema hstrategy]
      exact h.remove _

theorem sound_getDocument (h : e.cacheLayer.Sound) (moment : Moment) (collection : String)
    (docId : DocumentId) :
    (e.getDocument moment.ops json moment.now collection docId).2.cacheLayer.Sound := by
  obtain huncached | ⟨schema, hschema, hcached⟩ := uncached_or_cached e collection
  · rw [getDocument_uncached huncached]
    exact h
  rw [getDocument_cached hschema hcached]
  have hget := h.get moment.now (makeCacheKey collection docId)
  cases hlookup : (e.cacheLayer.get moment.now (makeCacheKey collection docId)).1 with
  | some data =>
    rw [getCached_hit hlookup]
    exact hget
  | none =>
    rw [getCached_miss hlookup]
    cases e.persistentLayer.getDocument json moment.now collection docId with
    | error error => exact hget
    | ok found =>
      cases found with
      | none => exact hget
      | some doc => exact sound_setDocument hget moment collection docId doc schema

theorem sound_after (h : e.cacheLayer.Sound) (op : Moment × EngineCall) :
    (e.after json catalogue op).cacheLayer.Sound := by
  obtain ⟨moment, engineCall⟩ := op
  cases engineCall with
  | registerSchema collection schema => exact h
  | insert collection doc =>
    rw [after, insert_eq]
    exact sound_updateDocument h moment collection doc.id doc
  | update collection docId doc => exact sound_updateDocument h moment collection docId doc
  | delete collection docId => exact sound_deleteDocument h moment collection docId
  | get collection docId => exact sound_getDocument h moment collection docId
  | expire => exact h.evictExpired moment.now
  | evict target => exact h.evictByPolicy moment.order moment.now target
  | preload collection limit =>
    obtain ⟨cacheLayer, hcache, heq⟩ := preload_cache (P := CacheLayer.Sound)
      (fun schema _ _ _ _ doc _ hlayer =>
        sound_setDocument hlayer moment collection doc.id doc schema) h
    show (e.preloadCollection moment.ops json moment.now collection limit).2.cacheLayer.Sound
    rw [heq]
    exact hcache
  | refresh collection =>
    obtain ⟨cacheLayer, hcache, heq⟩ := refresh_cache (P := CacheLayer.Sound)
      (fun schema _ _ _ _ doc _ hlayer =>
        sound_setDocument hlayer moment collection doc.id doc schema) h
    show (e.refreshCollectionCache moment.ops json moment.now collection).2.cacheLayer.Sound
    rw [heq]
    exact hcache
  | processQueue =>
    show (e.processWriteBehindQueue json moment.now).cacheLayer.Sound
    rw [HybridStorageEngine.processWriteBehindQueue_cacheLayer]
    exact h
  | flush =>
    show (e.flush json).2.cacheLayer.Sound
    rw [HybridStorageEngine.flush_cacheLayer]
    exact h
  | dropCollection collection => exact CacheLayer.sound_clear _

theorem sound_run (config : CacheConfig) (schemas : Std.ExtTreeMap String Schema)
    (ops : List (Moment × EngineCall)) :
    (ops.foldl (after json catalogue) (new config schemas)).cacheLayer.Sound := by
  apply List.foldlRecOn (motive := fun e : CachedEngine => e.cacheLayer.Sound) ops
  · exact CacheLayer.sound_new config
  · intro e he op _
    exact sound_after he op

/-! ## Reads -/

theorem setDocument_fst {a b : CacheLayer} (h : a.SameCache b) (moment : Moment)
    (collection : String) (docId : DocumentId) (doc : Document) (schema : Schema) :
    (setDocument a moment collection docId doc schema).1 =
      (setDocument b moment collection docId doc schema).1 := by
  by_cases hfits : a.Fits (documentToCacheData doc schema)
  · rw [setDocument_eq_ok_iff.mpr hfits, setDocument_eq_ok_iff.mpr ((h.fits _).mp hfits)]
  · rw [setDocument_of_not_fits hfits, setDocument_of_not_fits (mt (h.fits _).mpr hfits)]

theorem getDocument_same {e' : CachedEngine} (moment : Moment)
    (hschemas : e'.schemas = e.schemas)
    (hdecoded : ∀ key, e'.persistentLayer.decoded json key = e.persistentLayer.decoded json key)
    (hcache : (e'.cacheLayer.evictExpired moment.now).SameCache
      (e.cacheLayer.evictExpired moment.now)) (collection : String) (docId : DocumentId) :
    (e'.getDocument moment.ops json moment.now collection docId).1 =
      (e.getDocument moment.ops json moment.now collection docId).1 := by
  have hread : e'.persistentLayer.getDocument json moment.now collection docId =
      e.persistentLayer.getDocument json moment.now collection docId :=
    PersistentLayer.getDocument_eq_iff.mpr (hdecoded _)
  obtain huncached | ⟨schema, hschema, hcached⟩ := uncached_or_cached e collection
  · have huncached' : Uncached e' collection := by
      rw [Uncached, hschemas]
      exact huncached
    rw [getDocument_uncached huncached, getDocument_uncached huncached']
    exact hread
  have hschema' : e'.schemas[collection]? = some schema := by
    rw [hschemas]
    exact hschema
  rw [getDocument_cached hschema hcached, getDocument_cached hschema' hcached]
  obtain ⟨hlookups, hafter⟩ :=
    CacheLayer.get_same hcache (makeCacheKey collection docId)
  cases hlookup : (e.cacheLayer.get moment.now (makeCacheKey collection docId)).1 with
  | some data => rw [getCached_hit hlookup, getCached_hit (hlookups.trans hlookup)]
  | none =>
    rw [getCached_miss hlookup, getCached_miss (hlookups.trans hlookup), hread]
    cases e.persistentLayer.getDocument json moment.now collection docId with
    | error error => rfl
    | ok found =>
      cases found with
      | none => rfl
      | some doc =>
        dsimp only
        rw [setDocument_fst hafter]

theorem getDocument_ok_iff (moment : Moment) {collection : String} {docId : DocumentId}
    {doc : Document} (h : e.cacheLayer.Sound)
    (hstored : e.persistentLayer.getDocument json moment.now collection docId = .ok (some doc)) :
    (∃ found, (e.getDocument moment.ops json moment.now collection docId).1 = .ok found) ↔
      ∀ schema, e.schemas[collection]? = some schema → schema.cacheConfig.strategy ≠ .none →
        (e.cacheLayer.get moment.now (makeCacheKey collection docId)).1 = none →
        (e.cacheLayer.get moment.now (makeCacheKey collection docId)).2.Fits
          (documentToCacheData doc schema) := by
  obtain huncached | ⟨schema, hschema, hcached⟩ := uncached_or_cached e collection
  · rw [getDocument_uncached huncached]
    refine iff_of_true ⟨some doc, hstored⟩ fun schema hschema hcached => ?_
    exact absurd (huncached schema hschema) hcached
  have hsame {P : Schema → Prop} : (∀ schema, e.schemas[collection]? = some schema →
      schema.cacheConfig.strategy ≠ .none → P schema) ↔ P schema := by
    constructor
    · exact fun hall => hall schema hschema hcached
    · intro hown schema' hschema' _
      rw [Option.some.inj (hschema'.symm.trans hschema)]
      exact hown
  rw [getDocument_cached hschema hcached, hsame]
  cases hlookup : (e.cacheLayer.get moment.now (makeCacheKey collection docId)).1 with
  | some data =>
    obtain ⟨fields, hfields⟩ := h.hashes _ data (CacheLayer.get_peek hlookup)
    rw [getCached_hit hlookup, hfields]
    exact iff_of_true ⟨_, rfl⟩ nofun
  | none =>
    rw [getCached_miss hlookup, hstored]
    dsimp only
    by_cases hfits : (e.cacheLayer.get moment.now (makeCacheKey collection docId)).2.Fits
        (documentToCacheData doc schema)
    · rw [setDocument_eq_ok_iff.mpr hfits]
      exact iff_of_true ⟨some doc, rfl⟩ fun _ => hfits
    · rw [setDocument_of_not_fits hfits]
      refine iff_of_false ?_ fun hroom => hfits (hroom rfl)
      intro ⟨found, hfound⟩
      cases hfound

/-! ## Writes that fail -/

/-- Putting the document into the cache would end no cached value early. -/
def ExpiresNothing (e : CachedEngine) (now : DateTime) (collection : String) (docId : DocumentId)
    (schema : Schema) : Prop :=
  ∀ ttl, schema.cacheConfig.ttl = some ttl →
    e.cacheLayer.ExpiresBy (makeCacheKey collection docId) (CachedValue.expiry now ttl)

/-- When the cache has no room for the document, a write-through finds it stored already, and
neither it nor a write-behind leaves an expiry that matters. -/
def FailsCleanly (json : DocumentJson) (e : CachedEngine) (now : DateTime) (collection : String)
    (docId : DocumentId) (doc : Document) : Prop :=
  ∀ schema, e.schemas[collection]? = some schema →
    ¬e.cacheLayer.Fits (documentToCacheData doc schema) →
    match schema.cacheConfig.strategy with
    | .none | .readThrough => True
    | .writeThrough => ∀ value, json.toVec doc.id doc.fields = .ok value →
        e.persistentLayer.decoded json (makeDocumentKey collection docId) =
            some (json.fromSlice value) ∧
          e.ExpiresNothing now collection docId schema
    | .writeBehind _ => e.ExpiresNothing now collection docId schema

/-- The engines answer every read and every scan alike, at whatever time. -/
def ReadsAs (json : DocumentJson) (e e' : CachedEngine) : Prop :=
  ∀ (later : Moment) collection docId,
    (e'.getDocument later.ops json later.now collection docId).1 =
        (e.getDocument later.ops json later.now collection docId).1 ∧
      e'.scanCollection json later.now collection = e.scanCollection json later.now collection

-- A document that is refused leaves at most an expiry behind.
theorem refused_readsAs {moment : Moment} {collection : String} {docId : DocumentId}
    {doc : Document}
    {schema : Schema} {persistentLayer : PersistentLayer} (h : e.cacheLayer.Sound)
    (hfits : ¬e.cacheLayer.Fits (documentToCacheData doc schema))
    (hdecoded : ∀ key, persistentLayer.decoded json key = e.persistentLayer.decoded json key)
    (hexpires : e.ExpiresNothing moment.now collection docId schema) :
    ReadsAs json e { e with
      persistentLayer := persistentLayer
      cacheLayer := (setDocument e.cacheLayer moment collection docId doc schema).2 } := by
  have hpolicy : e.cacheLayer.config.evictionPolicy = .noEviction :=
    not_not.mp (not_or.mp hfits).1
  have hcache (now : DateTime) :
      ((setDocument e.cacheLayer moment collection docId doc schema).2.evictExpired now).SameCache
        (e.cacheLayer.evictExpired now) := by
    rw [setDocument_of_not_fits hfits]
    cases httl : schema.cacheConfig.ttl with
    | none => exact .refl _
    | some ttl =>
      exact CacheLayer.evictExpired_recordExpiry (h.recorded hpolicy) (hexpires ttl httl) now
  intro later name id
  constructor
  · apply getDocument_same later
    · rfl
    · exact hdecoded
    · exact hcache later.now
  · exact scanCollection_congr hdecoded name

/-- A write that fails cleanly is not seen by any later read or scan. -/
theorem updateDocument_readsAs {moment : Moment} {collection : String} {docId : DocumentId}
    {doc : Document} {error : StorageError} (h : e.cacheLayer.Sound)
    (hfails : (e.updateDocument moment.ops json moment.now collection docId doc).1 = .error error)
    (hclean : e.FailsCleanly json moment.now collection docId doc) :
    ReadsAs json e (e.updateDocument moment.ops json moment.now collection docId doc).2 := by
  have hrefl : ReadsAs json e e := fun _ _ _ => ⟨rfl, rfl⟩
  obtain huncached | ⟨schema, hschema, hcached⟩ := uncached_or_cached e collection
  · rw [updateDocument_uncached huncached] at hfails ⊢
    cases hinsert : e.persistentLayer.insertDocument json collection docId doc with
    | error error => exact hrefl
    | ok layer =>
      rw [hinsert] at hfails
      cases hfails
  have hclean := hclean schema hschema
  cases hstrategy : schema.cacheConfig.strategy with
  | none => exact absurd hstrategy hcached
  | writeThrough =>
    cases hinsert : e.persistentLayer.insertDocument json collection docId doc with
    | error error =>
      rw [updateDocument_writeThrough_error hschema hstrategy hinsert]
      exact hrefl
    | ok layer =>
      obtain ⟨value, hto, hlayer⟩ := PersistentLayer.decoded_insertDocument hinsert
      rw [updateDocument_writeThrough hschema hstrategy hinsert] at hfails ⊢
      have hfits : ¬e.cacheLayer.Fits (documentToCacheData doc schema) := by
        intro hfits
        rw [setDocument_eq_ok_iff.mpr hfits] at hfails
        cases hfails
      rw [hstrategy] at hclean
      obtain ⟨hstored, hexpires⟩ := hclean hfits value hto
      refine refused_readsAs h hfits ?_ hexpires
      intro key
      rw [hlayer]
      by_cases hkey : makeDocumentKey collection docId = key
      · rw [if_pos hkey, ← hkey, hstored]
      · rw [if_neg hkey]
  | writeBehind delayMs =>
    by_cases hfits : e.cacheLayer.Fits (documentToCacheData doc schema)
    · rw [updateDocument_writeBehind hschema hstrategy hfits] at hfails
      cases hfails
    · rw [hstrategy] at hclean
      rw [updateDocument_writeBehind_error hschema hstrategy hfits]
      exact refused_readsAs h hfits (fun _ => rfl) (hclean hfits)
  | readThrough =>
    cases hinsert : e.persistentLayer.insertDocument json collection docId doc with
    | error error =>
      rw [updateDocument_readThrough_error hschema hstrategy hinsert]
      exact hrefl
    | ok layer =>
      rw [updateDocument_readThrough hschema hstrategy hinsert] at hfails
      cases hfails

end CachedEngine

/-- The write that a call makes, if it makes one. -/
def EngineCall.written : EngineCall → Option (String × DocumentId × Document)
  | .insert collection doc => some (collection, doc.id, doc)
  | .update collection docId doc => some (collection, docId, doc)
  | _ => none

/-- A cache that has room for nothing. -/
def fullCache : CacheConfig :=
  { maxSizeBytes := 10, evictionPolicy := .noEviction, defaultTtl := none }

def refusedEngine : CachedEngine :=
  (CachedEngine.new fullCache (usersSchemas .writeThrough)).after nullDocuments plainCatalogue
    (⟨0, .sorted⟩, .insert "users" (nullDocument ⟨1⟩))

theorem refusedEngine_getDocument :
    refusedEngine.persistentLayer.getDocument nullDocuments 1 "users" ⟨1⟩ =
      .ok (some { nullDocument ⟨1⟩ with metadata := .default 1 }) := by
  rw [PersistentLayer.getDocument_eq_some_iff]
  exact ⟨nullJson ⟨1⟩ true, rfl, nullDocuments_fromSlice_nullJson ⟨1⟩ true, rfl⟩

theorem refusedEngine_unread (found : Option Document) :
    (refusedEngine.getDocument (Moment.ops ⟨1, .sorted⟩) nullDocuments 1 "users" ⟨1⟩).1 ≠
      .ok found := by
  intro hfound
  have hsound : refusedEngine.cacheLayer.Sound :=
    CachedEngine.sound_after (CacheLayer.sound_new fullCache) _
  have hroom := (CachedEngine.getDocument_ok_iff ⟨1, .sorted⟩ hsound
    refusedEngine_getDocument).mp ⟨found, hfound⟩
  exact absurd (hroom (wholeSchema .writeThrough) rfl (by decide) rfl) (by decide)

end VedDb
