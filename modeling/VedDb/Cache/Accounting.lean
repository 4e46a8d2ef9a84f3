import VedDb.Cache.Space
import VedDb.Lib.Totals

/-!
# The size of the cache

`current_size` is kept beside the entries by six paths that add to it and subtract from it.  It is
the sum of the sizes of the entries in every state, and what is taken off it is never more than it.
The sizes are those of values in memory, so their sum fits the counter.
-/

namespace VedDb

/-!
## Operations of the cache layer

The methods of `CacheLayer` as steps of a run, each at its own instant.  `CachedValue::with_ttl` and
`update_ttl` panic on a TTL whose end `chrono` cannot represent, before anything is changed; which
TTLs these are is a parameter.
-/

/-- The TTLs, in seconds, that panic at an instant. -/
abbrev ChronoOverflow := DateTime → Nat → Bool

namespace F64

def zero : F64 := ⟨0⟩

def one : F64 := ⟨0x3FF0000000000000⟩

/-- `f64::clamp(0.0, 1.0)`, which keeps a NaN. -/
def clampUnit (f : F64) : F64 :=
  if f.partialCmp zero = some .lt then zero
  else if f.partialCmp one = some .gt then one
  else f

/-- `(n as f64 * f) as usize` for a NaN or a double from 0 to 1: its significand is a whole number
over a power of two. -/
def portion (n : Nat) (f : F64) : Nat :=
  let exponent := f.magnitude / 2 ^ 52
  let significand := f.magnitude % 2 ^ 52 + if exponent = 0 then 0 else 2 ^ 52
  if f.isNaN then 0
  else min (round (round n * significand) / 2 ^ (1075 - max exponent 1)) (2 ^ 64 - 1)

/-- Half of ten, and three quarters of them. -/
example : portion 10 ⟨0x3FE0000000000000⟩ = 5 ∧ portion 10 ⟨0x3FE8000000000000⟩ = 7 := by decide

end F64

namespace CacheLayer

def evictPercentage (order : CacheOrder) (layer : CacheLayer) (now : DateTime) (percentage : F64) :
    Nat × CacheLayer :=
  let targetBytes := F64.portion layer.currentSize.toNat percentage.clampUnit
  let after := layer.evictByPolicy order now (UInt64.ofNat targetBytes)
  (layer.cache.size - after.cache.size, after)

inductive LayerOp where
  | set (key : String) (value : CacheData)
  | setWithTtl (key : String) (value : CacheData) (ttl : Option Nat)
  | get (key : String)
  | remove (key : String)
  | expire (key : String) (ttl : Nat)
  | persist (key : String)
  | clear
  | evictPercentage (percentage : F64)
  /-- The heap is emptied of what is due. -/
  | evictExpired

variable (overflow : ChronoOverflow)

/-- `set_with_ttl`: nothing where it panics. -/
def trySet (layer : CacheLayer) (moment : Moment) (key : String) (value : CacheData)
    (ttl : Option Nat) : Option (Except String Unit × CacheLayer) :=
  if ttl.any (overflow moment.now) then none
  else some (layer.setWithTtl moment.order moment.now key value ttl)

/-- `expire`: nothing where it panics. -/
def tryExpire (layer : CacheLayer) (moment : Moment) (key : String) (ttl : Nat) :
    Option (Bool × CacheLayer) :=
  if layer.cache.contains key ∧ overflow moment.now ttl = true then none
  else some (layer.expire moment.now key ttl)

/-- The write that a step makes, by `set` or `set_with_ttl`. -/
def LayerOp.write (layer : CacheLayer) : LayerOp → Option (String × CacheData × Option Nat)
  | .set key value => some (key, value, layer.config.defaultTtl)
  | .setWithTtl key value ttl => some (key, value, ttl)
  | _ => none

def step (layer : CacheLayer) (op : Moment × LayerOp) : CacheLayer :=
  match op.2 with
  | .set key value =>
    ((layer.trySet overflow op.1 key value layer.config.defaultTtl).map Prod.snd).getD layer
  | .setWithTtl key value ttl =>
    ((layer.trySet overflow op.1 key value ttl).map Prod.snd).getD layer
  | .get key => (layer.get op.1.now key).2
  | .remove key => (layer.remove key).2
  | .expire key ttl => ((layer.tryExpire overflow op.1 key ttl).map Prod.snd).getD layer
  | .persist key => (layer.persist key).2
  | .clear => layer.clear
  | .evictPercentage percentage => (layer.evictPercentage op.1.order op.1.now percentage).2
  | .evictExpired => layer.evictExpired op.1.now

variable {overflow} {layer : CacheLayer} {moment : Moment} {key : String} {value : CacheData}
variable {ttl : Option Nat}

/-- A write that does not panic. -/
theorem trySet_of_not (h : ttl.any (overflow moment.now) = false) :
    layer.trySet overflow moment key value ttl =
      some (layer.setWithTtl moment.order moment.now key value ttl) := by
  rw [trySet, h]
  rfl

theorem trySet_cases (overflow : ChronoOverflow) (layer : CacheLayer) (moment : Moment)
    (key : String) (value : CacheData) (ttl : Option Nat) :
    layer.trySet overflow moment key value ttl = none ∨
      layer.trySet overflow moment key value ttl =
        some (layer.setWithTtl moment.order moment.now key value ttl) := by
  rw [trySet]
  split
  · exact Or.inl rfl
  · exact Or.inr rfl

/-- What every write keeps, a step that writes keeps. -/
theorem step_write {op : LayerOp} (h : op.write layer = some (key, value, ttl)) :
    layer.step overflow (moment, op) =
      ((layer.trySet overflow moment key value ttl).map Prod.snd).getD layer := by
  cases op with
  | set key' value' =>
    cases h
    rfl
  | setWithTtl key' value' ttl' =>
    cases h
    rfl
  | _ => cases h

/-- What a write that succeeds leaves. -/
theorem setWithTtl_eq_ok {after : CacheLayer}
    (h : layer.setWithTtl moment.order moment.now key value ttl = (.ok (), after)) :
    let cached := cachedValue moment.now value ttl
    let spaced :=
      (layer.recordExpiry key cached.expiresAt).ensureSpace moment.order moment.now
        cached.sizeBytes
    spaced.1 = .ok () ∧ after = spaced.2.store key cached := by
  intro cached spaced
  unfold setWithTtl at h
  dsimp only at h
  split at h
  · cases h
  · next hspaced =>
    cases h
    have hown : spaced = (.ok (), _) := hspaced
    rw [hown]
    exact ⟨rfl, rfl⟩

end CacheLayer

def CachedValue.bytes (cached : CachedValue) : Nat := cached.sizeBytes.toNat

namespace CacheLayer

/-- The sizes of the entries together. -/
def totalBytes (layer : CacheLayer) : Nat := total CachedValue.bytes layer.cache

/-- The counter is the sum of the sizes, in the arithmetic of the counter. -/
def Accounted (layer : CacheLayer) : Prop := layer.currentSize = UInt64.ofNat layer.totalBytes

variable {layer : CacheLayer} {key : String} {cached : CachedValue}

/-! ## What each change does to the sum -/

theorem totalBytes_of_some (h : layer.cache[key]? = some cached) :
    layer.totalBytes = cached.bytes + (layer.take key).totalBytes := by
  rw [take_of_some h]
  exact total_of_some _ h

theorem totalBytes_take_le (layer : CacheLayer) (key : String) :
    (layer.take key).totalBytes ≤ layer.totalBytes := by
  cases h : layer.cache[key]? with
  | none => rw [take_of_none h]
  | some cached =>
    rw [totalBytes_of_some h]
    exact Nat.le_add_left _ _

theorem total_insert_of_size {map : Std.ExtTreeMap String CachedValue} {written : CachedValue}
    (h : map[key]? = some cached) (hsize : written.sizeBytes = cached.sizeBytes) :
    total CachedValue.bytes (map.insert key written) = total CachedValue.bytes map := by
  rw [total_insert, total_of_some _ h, CachedValue.bytes, hsize, CachedValue.bytes]

theorem accounted_new (config : CacheConfig) : (new config).Accounted := by
  show (0 : UInt64) = UInt64.ofNat (total _ ∅)
  rw [total_empty]
  rfl

theorem Accounted.take (h : layer.Accounted) (key : String) : (layer.take key).Accounted := by
  cases hown : layer.cache[key]? with
  | none =>
    rw [take_of_none hown]
    exact h
  | some cached =>
    have htotal := totalBytes_of_some hown
    rw [Accounted, htotal, UInt64.ofNat_add, CachedValue.bytes, UInt64.ofNat_toNat] at h
    have hsize : (layer.take key).currentSize = layer.currentSize - cached.sizeBytes := by
      rw [take_of_some hown]
    rw [Accounted, hsize, h]
    grind

theorem Accounted.forgetExpiry (h : layer.Accounted) (key : String) :
    (layer.forgetExpiry key).Accounted := h

theorem Accounted.recordExpiry (h : layer.Accounted) (key : String)
    (expiresAt : Option DateTime) : (layer.recordExpiry key expiresAt).Accounted := by
  unfold CacheLayer.recordExpiry
  split
  · exact h
  · exact h

theorem Accounted.remove (h : layer.Accounted) (key : String) :
    (layer.remove key).2.Accounted := by
  unfold CacheLayer.remove
  split
  · exact (h.take key).forgetExpiry key
  · exact h

theorem totalBytes_store (layer : CacheLayer) (key : String) (cached : CachedValue) :
    (layer.store key cached).totalBytes = cached.bytes + (layer.take key).totalBytes := by
  have hcache : (layer.take key).cache = layer.cache.erase key := by
    cases hown : layer.cache[key]? with
    | none => rw [take_of_none hown, erase_of_none hown]
    | some old => rw [take_of_some hown]
  rw [CacheLayer.totalBytes, CacheLayer.totalBytes, hcache]
  exact total_insert _ _ _ _

/-- The old size goes before the new one comes. -/
theorem Accounted.store (h : layer.Accounted) (key : String) (cached : CachedValue) :
    (layer.store key cached).Accounted := by
  have htake := h.take key
  have hstore : (layer.store key cached).currentSize =
      (layer.take key).currentSize + cached.sizeBytes := by
    unfold CacheLayer.store CacheLayer.take
    cases layer.cache[key]? <;> rfl
  rw [Accounted] at htake ⊢
  rw [hstore, totalBytes_store, htake, UInt64.ofNat_add, CachedValue.bytes, UInt64.ofNat_toNat,
    UInt64.add_comm]

theorem Accounted.rewrite (h : layer.Accounted) {written : CachedValue}
    (hown : layer.cache[key]? = some cached) (hsize : written.sizeBytes = cached.sizeBytes)
    (heap : List ExpirationEntry) :
    Accounted { layer with cache := layer.cache.insert key written, ttlManager := heap } := by
  rw [Accounted, totalBytes, total_insert_of_size hown hsize]
  exact h

/-! ## Expiry and eviction -/

section

variable {P : CacheLayer → Prop}

theorem takeAll_keeps (htake : ∀ {layer} key, P layer → P (layer.take key))
    (entries : List ExpirationEntry) (h : P layer) :
    P (entries.foldl (fun layer entry => layer.take entry.key) layer) := by
  induction entries generalizing layer with
  | nil => exact h
  | cons entry entries ih => exact ih (htake entry.key h)

theorem evictVictims_keeps
    (htake : ∀ {layer} key, P layer → P ((layer.take key).forgetExpiry key)) (target : UInt64)
    (victims : List String) (evicted : UInt64) (h : P layer) :
    P (evictVictims target victims evicted layer) := by
  induction victims generalizing evicted layer with
  | nil => exact h
  | cons key victims ih =>
    rw [evictVictims]
    split
    · exact h
    · split
      · exact ih evicted h
      · exact ih _ (htake key h)

/-- What the loss of an entry and of its expiry keeps, making room keeps. -/
theorem ensureSpace_keeps
    (htake : ∀ {layer} key, P layer → P ((layer.take key).forgetExpiry key)) (order : CacheOrder)
    (now : DateTime) (requiredSize : UInt64) (h : P layer) :
    P (layer.ensureSpace order now requiredSize).2 := by
  unfold ensureSpace
  split
  · exact h
  · split
    · exact h
    · exact evictVictims_keeps htake _ _ 0 h

end

theorem Accounted.evictExpired (h : layer.Accounted) (now : DateTime) :
    (layer.evictExpired now).Accounted :=
  takeAll_keeps (P := Accounted) (fun key h => h.take key) _ h

theorem Accounted.setWithTtl (h : layer.Accounted) (order : CacheOrder) (now : DateTime)
    (key : String) (value : CacheData) (ttl : Option Nat) :
    (layer.setWithTtl order now key value ttl).2.Accounted := by
  have hspace := ensureSpace_keeps (P := Accounted)
    (fun key h => (h.take key).forgetExpiry key) order now
    (cachedValue now value ttl).sizeBytes
    (h.recordExpiry key (cachedValue now value ttl).expiresAt)
  unfold CacheLayer.setWithTtl
  dsimp only
  split
  next hroom =>
    rw [hroom] at hspace
    exact hspace
  next hroom =>
    rw [hroom] at hspace
    exact hspace.store key _

theorem Accounted.get (h : layer.Accounted) (now : DateTime) (key : String) :
    (layer.get now key).2.Accounted := by
  have hexpired := h.evictExpired now
  unfold CacheLayer.get
  dsimp only
  split
  next => exact hexpired
  next cached hcached =>
    split
    · exact hexpired.remove key
    · have hsize : (cached.markAccessed now).sizeBytes = cached.sizeBytes := rfl
      exact hexpired.rewrite hcached hsize _

theorem Accounted.expire (h : layer.Accounted) (now : DateTime) (key : String) (ttl : Nat) :
    (layer.expire now key ttl).2.Accounted := by
  unfold CacheLayer.expire
  split
  next => exact h
  next cached hcached =>
    have hsize : (cached.updateTtl now ttl).sizeBytes = cached.sizeBytes := rfl
    exact h.rewrite hcached hsize _

theorem Accounted.persist (h : layer.Accounted) (key : String) :
    (layer.persist key).2.Accounted := by
  unfold CacheLayer.persist
  split
  next => exact h
  next cached hcached =>
    have hsize : cached.persist.sizeBytes = cached.sizeBytes := rfl
    exact h.rewrite hcached hsize _

theorem Accounted.step (h : layer.Accounted) (overflow : ChronoOverflow)
    (op : Moment × LayerOp) : (layer.step overflow op).Accounted := by
  obtain ⟨moment, op⟩ := op
  have hwrite (key : String) (value : CacheData) (ttl : Option Nat) :
      (((layer.trySet overflow moment key value ttl).map Prod.snd).getD layer).Accounted := by
    rcases trySet_cases overflow layer moment key value ttl with hnone | hsome
    · rw [hnone]
      exact h
    · rw [hsome]
      exact h.setWithTtl moment.order moment.now key value ttl
  cases op with
  | set key value => exact hwrite key value layer.config.defaultTtl
  | setWithTtl key value ttl => exact hwrite key value ttl
  | get key => exact h.get moment.now key
  | remove key => exact h.remove key
  | expire key ttl =>
    show (((layer.tryExpire overflow moment key ttl).map Prod.snd).getD layer).Accounted
    unfold tryExpire
    split
    · exact h
    · exact h.expire moment.now key ttl
  | persist key => exact h.persist key
  | clear => exact accounted_new layer.config
  | evictPercentage percentage =>
    exact evictVictims_keeps (P := Accounted) (fun key h => (h.take key).forgetExpiry key)
      _ _ 0 h
  | evictExpired => exact h.evictExpired moment.now

theorem accounted_run (overflow : ChronoOverflow) (config : CacheConfig)
    (ops : List (Moment × LayerOp)) : (ops.foldl (step overflow) (new config)).Accounted :=
  List.foldlRecOn ops _ (accounted_new config) fun _ h op _ => h.step overflow op

/-! ## Subtractions -/

/-- What is taken off the counter when the entry of a key goes: the counter, and the size. -/
def subtraction (layer : CacheLayer) (key : String) : Option (UInt64 × UInt64) :=
  layer.cache[key]?.map fun cached => (layer.currentSize, cached.sizeBytes)

def expiredAt : List ExpirationEntry → CacheLayer → List (CacheLayer × String)
  | [], _ => []
  | entry :: entries, layer => (layer, entry.key) :: expiredAt entries (layer.take entry.key)

def victimsAt (target : UInt64) : List String → UInt64 → CacheLayer → List (CacheLayer × String)
  | [], _, _ => []
  | key :: victims, evicted, layer =>
    if target ≤ evicted then []
    else
      match layer.cache[key]? with
      | none => victimsAt target victims evicted layer
      | some cached =>
        (layer, key) ::
          victimsAt target victims (evicted + cached.sizeBytes)
            ((layer.take key).forgetExpiry key)

def evictExpiredAt (layer : CacheLayer) (now : DateTime) : List (CacheLayer × String) :=
  expiredAt (layer.ttlManager.filter fun entry => entry.expiresAt ≤ now)
    { layer with ttlManager := layer.ttlManager.filter fun entry => now < entry.expiresAt }

def evictByPolicyAt (order : CacheOrder) (layer : CacheLayer) (now : DateTime) (target : UInt64) :
    List (CacheLayer × String) :=
  let candidates := order.arrange layer.cache.toList
  let victims := layer.config.evictionPolicy.selectVictims now candidates candidates.length
  victimsAt target victims 0 layer

def ensureSpaceAt (order : CacheOrder) (layer : CacheLayer) (now : DateTime)
    (requiredSize : UInt64) : List (CacheLayer × String) :=
  if layer.currentSize + requiredSize ≤ layer.config.maxSizeBytes then []
  else if layer.config.evictionPolicy = .noEviction then []
  else
    let targetSize := layer.currentSize + requiredSize - layer.config.maxSizeBytes
    layer.evictByPolicyAt order now (UInt64.ofNat (evictSize targetSize.toNat))

/-- A read takes what has expired, and then its own entry where that has. -/
def getAt (layer : CacheLayer) (now : DateTime) (key : String) : List (CacheLayer × String) :=
  layer.evictExpiredAt now ++
    match (layer.evictExpired now).cache[key]? with
    | none => []
    | some cached => if cached.isExpired now then [(layer.evictExpired now, key)] else []

/-- A write takes what is evicted, and then the old value of its key. -/
def setWithTtlAt (order : CacheOrder) (layer : CacheLayer) (now : DateTime) (key : String)
    (value : CacheData) (ttl : Option Nat) : List (CacheLayer × String) :=
  let cached := cachedValue now value ttl
  let recorded := layer.recordExpiry key cached.expiresAt
  recorded.ensureSpaceAt order now cached.sizeBytes ++
    match recorded.ensureSpace order now cached.sizeBytes with
    | (.error _, _) => []
    | (.ok (), layer) => [(layer, key)]

/-- The layers at which a step takes an entry off the counter, and the keys. -/
def takenAt (overflow : ChronoOverflow) (layer : CacheLayer) (op : Moment × LayerOp) :
    List (CacheLayer × String) :=
  match op.2 with
  | .set key value =>
    if layer.config.defaultTtl.any (overflow op.1.now) then []
    else layer.setWithTtlAt op.1.order op.1.now key value layer.config.defaultTtl
  | .setWithTtl key value ttl =>
    if ttl.any (overflow op.1.now) then []
    else layer.setWithTtlAt op.1.order op.1.now key value ttl
  | .get key => layer.getAt op.1.now key
  | .remove key => [(layer, key)]
  | .evictPercentage percentage =>
    layer.evictByPolicyAt op.1.order op.1.now
      (UInt64.ofNat (F64.portion layer.currentSize.toNat percentage.clampUnit))
  | .evictExpired => layer.evictExpiredAt op.1.now
  | .expire _ _ | .persist _ | .clear => []

/-! ### What the subtractions come to -/

/-- What is taken off the counter at a place. -/
def amountAt (place : CacheLayer × String) : UInt64 :=
  ((place.1.subtraction place.2).map Prod.snd).getD 0

def deducted (counter : UInt64) (places : List (CacheLayer × String)) : UInt64 :=
  places.foldl (fun counter place => counter - amountAt place) counter

/-- What a step adds to the counter. -/
def added (overflow : ChronoOverflow) (layer : CacheLayer) (op : Moment × LayerOp) : UInt64 :=
  match op.2.write layer with
  | none => 0
  | some (key, value, ttl) =>
    match layer.trySet overflow op.1 key value ttl with
    | some (.ok (), _) => (cachedValue op.1.now value ttl).sizeBytes
    | some (.error _, _) | none => 0

theorem currentSize_take (layer : CacheLayer) (key : String) :
    (layer.take key).currentSize = layer.currentSize - amountAt (layer, key) := by
  rw [take, amountAt, subtraction]
  cases layer.cache[key]? with
  | none => exact (UInt64.sub_zero _).symm
  | some cached => rfl

theorem currentSize_store (layer : CacheLayer) (key : String) (cached : CachedValue) :
    (layer.store key cached).currentSize =
      layer.currentSize - amountAt (layer, key) + cached.sizeBytes := by
  rw [store, amountAt, subtraction]
  cases layer.cache[key]? with
  | none => exact congrArg (· + cached.sizeBytes) (UInt64.sub_zero _).symm
  | some cached => rfl

theorem currentSize_takeAll (entries : List ExpirationEntry) (layer : CacheLayer) :
    (entries.foldl (fun layer entry => layer.take entry.key) layer).currentSize =
      deducted layer.currentSize (expiredAt entries layer) := by
  induction entries generalizing layer with
  | nil => rfl
  | cons entry entries ih =>
    rw [List.foldl_cons, ih, currentSize_take]
    rfl

theorem currentSize_evictVictims (target : UInt64) (victims : List String) (evicted : UInt64)
    (layer : CacheLayer) : (evictVictims target victims evicted layer).currentSize =
      deducted layer.currentSize (victimsAt target victims evicted layer) := by
  induction victims generalizing evicted layer with
  | nil => rfl
  | cons key victims ih =>
    rw [evictVictims, victimsAt]
    split
    · rfl
    · cases layer.cache[key]? with
      | none => exact ih evicted layer
      | some cached =>
        dsimp only
        rw [ih, forgetExpiry, currentSize_take]
        rfl

theorem currentSize_evictExpired (layer : CacheLayer) (now : DateTime) :
    (layer.evictExpired now).currentSize =
      deducted layer.currentSize (layer.evictExpiredAt now) :=
  currentSize_takeAll _ _

theorem currentSize_ensureSpace (order : CacheOrder) (layer : CacheLayer) (now : DateTime)
    (requiredSize : UInt64) : (layer.ensureSpace order now requiredSize).2.currentSize =
      deducted layer.currentSize (layer.ensureSpaceAt order now requiredSize) := by
  rw [ensureSpace, ensureSpaceAt]
  split
  · rfl
  · split
    · rfl
    · exact currentSize_evictVictims _ _ _ _

theorem currentSize_remove (layer : CacheLayer) (key : String) :
    (layer.remove key).2.currentSize = layer.currentSize - amountAt (layer, key) := by
  rw [remove]
  split
  next => exact currentSize_take layer key
  next hcontains =>
    rw [Std.ExtTreeMap.contains_eq_isSome_getElem?, Bool.not_eq_true,
      Option.isSome_eq_false_iff, Option.isNone_iff_eq_none] at hcontains
    rw [← currentSize_take, take_of_none hcontains]

theorem currentSize_get (layer : CacheLayer) (now : DateTime) (key : String) :
    (layer.get now key).2.currentSize = deducted layer.currentSize (layer.getAt now key) := by
  rw [get, getAt, deducted, List.foldl_append]
  have hexpired := currentSize_evictExpired layer now
  rw [deducted] at hexpired
  rw [← hexpired]
  cases (layer.evictExpired now).cache[key]? with
  | none => rfl
  | some cached =>
    dsimp only
    split
    next => exact currentSize_remove _ key
    next => rfl

/-- A write that succeeds or fails, and does not panic. -/
theorem currentSize_setWithTtl (order : CacheOrder) (layer : CacheLayer) (now : DateTime)
    (key : String) (value : CacheData) (ttl : Option Nat) :
    (layer.setWithTtl order now key value ttl).2.currentSize =
      deducted layer.currentSize (layer.setWithTtlAt order now key value ttl) +
        match (layer.setWithTtl order now key value ttl).1 with
        | .ok () => (cachedValue now value ttl).sizeBytes
        | .error _ => 0 := by
  rw [setWithTtl, setWithTtlAt, deducted, List.foldl_append]
  have hspace := currentSize_ensureSpace order
    (layer.recordExpiry key (cachedValue now value ttl).expiresAt) now
    (cachedValue now value ttl).sizeBytes
  have hrecorded : (layer.recordExpiry key (cachedValue now value ttl).expiresAt).currentSize =
      layer.currentSize := by
    cases (cachedValue now value ttl).expiresAt with
    | none => rfl
    | some expiresAt => rfl
  rw [hrecorded, deducted] at hspace
  rw [← hspace]
  rcases (layer.recordExpiry key (cachedValue now value ttl).expiresAt).ensureSpace order now
    (cachedValue now value ttl).sizeBytes with ⟨error | ⟨⟩, spaced⟩
  · exact (UInt64.add_zero _).symm
  · exact currentSize_store spaced key _

/-- A step but `clear` leaves the counter less what is taken off it at the places, plus what the
step adds. -/
theorem currentSize_step (overflow : ChronoOverflow) (layer : CacheLayer)
    (op : Moment × LayerOp) (hclear : op.2 ≠ .clear) :
    (layer.step overflow op).currentSize =
      deducted layer.currentSize (layer.takenAt overflow op) + layer.added overflow op := by
  obtain ⟨moment, op⟩ := op
  have hwrite (key : String) (value : CacheData) (ttl : Option Nat) :
      (((layer.trySet overflow moment key value ttl).map Prod.snd).getD layer).currentSize =
        deducted layer.currentSize
          (if ttl.any (overflow moment.now) then []
          else layer.setWithTtlAt moment.order moment.now key value ttl) +
        match layer.trySet overflow moment key value ttl with
        | some (.ok (), _) => (cachedValue moment.now value ttl).sizeBytes
        | some (.error _, _) | none => 0 := by
    rw [trySet]
    split
    · exact (UInt64.add_zero _).symm
    · have hset := currentSize_setWithTtl moment.order layer moment.now key value ttl
      rcases hrun : layer.setWithTtl moment.order moment.now key value ttl with
        ⟨error | ⟨⟩, after⟩
      · rw [hrun] at hset
        exact hset
      · rw [hrun] at hset
        exact hset
  cases op with
  | set key value => exact hwrite key value layer.config.defaultTtl
  | setWithTtl key value ttl => exact hwrite key value ttl
  | get key => exact (currentSize_get layer moment.now key).trans (UInt64.add_zero _).symm
  | remove key => exact (currentSize_remove layer key).trans (UInt64.add_zero _).symm
  | expire key ttl =>
    refine Eq.trans ?_ (UInt64.add_zero _).symm
    rw [step]
    dsimp only
    rw [tryExpire]
    split
    · rfl
    · rw [expire]
      cases layer.cache[key]? with
      | none => rfl
      | some cached => rfl
  | persist key =>
    refine Eq.trans ?_ (UInt64.add_zero _).symm
    rw [step]
    dsimp only
    rw [persist]
    cases layer.cache[key]? with
    | none => rfl
    | some cached => rfl
  | clear => exact absurd rfl hclear
  | evictPercentage percentage =>
    exact (currentSize_evictVictims _ _ _ layer).trans (UInt64.add_zero _).symm
  | evictExpired =>
    exact (currentSize_evictExpired layer moment.now).trans (UInt64.add_zero _).symm

/-- The counter is the sum, and the sum fits it. -/
structure Held (layer : CacheLayer) : Prop where
  accounted : layer.Accounted
  totalBytes_lt : layer.totalBytes < 2 ^ 64

theorem Held.currentSize_eq (h : layer.Held) : layer.currentSize.toNat = layer.totalBytes := by
  rw [h.accounted]
  exact UInt64.toNat_ofNat_of_lt' h.totalBytes_lt

theorem Held.take (h : layer.Held) (key : String) : (layer.take key).Held where
  accounted := h.accounted.take key
  totalBytes_lt := Nat.lt_of_le_of_lt (totalBytes_take_le layer key) h.totalBytes_lt

theorem Held.forgetExpiry (h : layer.Held) (key : String) : (layer.forgetExpiry key).Held :=
  ⟨h.accounted, h.totalBytes_lt⟩

theorem Held.recordExpiry (h : layer.Held) (key : String) (expiresAt : Option DateTime) :
    (layer.recordExpiry key expiresAt).Held := by
  unfold CacheLayer.recordExpiry
  split
  · exact ⟨h.accounted, h.totalBytes_lt⟩
  · exact h

/-- No more is taken off the counter than it has. -/
theorem Held.subtraction_le (h : layer.Held) {counter amount : UInt64}
    (hsub : layer.subtraction key = some (counter, amount)) : amount ≤ counter := by
  rw [subtraction] at hsub
  cases hown : layer.cache[key]? with
  | none =>
    rw [hown] at hsub
    cases hsub
  | some cached =>
    rw [hown] at hsub
    cases hsub
    have hle : cached.bytes ≤ layer.totalBytes := le_total _ hown
    rw [UInt64.le_iff_toNat_le, h.currentSize_eq]
    exact hle

theorem Held.expiredAt (h : layer.Held) {entries : List ExpirationEntry} :
    ∀ place ∈ expiredAt entries layer, place.1.Held := by
  induction entries generalizing layer with
  | nil =>
    intro place hplace
    cases hplace
  | cons entry entries ih =>
    rw [CacheLayer.expiredAt, List.forall_mem_cons]
    exact ⟨h, ih (h.take entry.key)⟩

theorem Held.victimsAt (h : layer.Held) {target : UInt64} {victims : List String}
    {evicted : UInt64} : ∀ place ∈ victimsAt target victims evicted layer, place.1.Held := by
  induction victims generalizing evicted layer with
  | nil =>
    intro place hplace
    cases hplace
  | cons key victims ih =>
    rw [CacheLayer.victimsAt]
    split
    · intro place hplace
      cases hplace
    · split
      · exact ih h
      · rw [List.forall_mem_cons]
        exact ⟨h, ih ((h.take key).forgetExpiry key)⟩

theorem Held.ensureSpaceAt (h : layer.Held) {order : CacheOrder} {now : DateTime}
    {requiredSize : UInt64} :
    ∀ place ∈ layer.ensureSpaceAt order now requiredSize, place.1.Held := by
  unfold CacheLayer.ensureSpaceAt
  split
  · intro place hplace
    cases hplace
  · split
    · intro place hplace
      cases hplace
    · exact h.victimsAt

theorem Held.setWithTtlAt (h : layer.Held) {order : CacheOrder} {now : DateTime} {key : String}
    {value : CacheData} {ttl : Option Nat} :
    ∀ place ∈ layer.setWithTtlAt order now key value ttl, place.1.Held := by
  have hrecorded := h.recordExpiry key (cachedValue now value ttl).expiresAt
  have hspace := ensureSpace_keeps (P := Held) (fun key h => (h.take key).forgetExpiry key) order
    now (cachedValue now value ttl).sizeBytes hrecorded
  intro place hplace
  rcases List.mem_append.mp hplace with hevicted | hold
  · exact hrecorded.ensureSpaceAt place hevicted
  · split at hold
    next => cases hold
    next hroom =>
      rw [hroom] at hspace
      rw [List.mem_singleton.mp hold]
      exact hspace

/-- Wherever a step takes an entry, the counter is the sum. -/
theorem Held.takenAt (h : layer.Held) (overflow : ChronoOverflow) (op : Moment × LayerOp) :
    ∀ place ∈ layer.takenAt overflow op, place.1.Held := by
  obtain ⟨moment, op⟩ := op
  have hnone : ∀ place ∈ ([] : List (CacheLayer × String)), place.1.Held := by
    intro place hplace
    cases hplace
  have hheap : Held { layer with
      ttlManager := layer.ttlManager.filter fun entry => moment.now < entry.expiresAt } :=
    ⟨h.accounted, h.totalBytes_lt⟩
  have hexpired : ∀ place ∈ layer.evictExpiredAt moment.now, place.1.Held := hheap.expiredAt
  cases op with
  | set key value =>
    unfold CacheLayer.takenAt
    dsimp only
    split
    · exact hnone
    · exact h.setWithTtlAt
  | setWithTtl key value ttl =>
    unfold CacheLayer.takenAt
    dsimp only
    split
    · exact hnone
    · exact h.setWithTtlAt
  | get key =>
    have hleft : (layer.evictExpired moment.now).Held :=
      takeAll_keeps (P := Held) (fun key h => h.take key) _ hheap
    refine List.forall_mem_append.mpr ⟨hexpired, ?_⟩
    split
    · exact hnone
    · split
      · exact List.forall_mem_singleton.mpr hleft
      · exact hnone
  | remove key => exact List.forall_mem_singleton.mpr h
  | evictPercentage percentage => exact h.victimsAt
  | evictExpired => exact hexpired
  | expire key ttl => exact hnone
  | persist key => exact hnone
  | clear => exact hnone

/-- In every state of every run the counter is the sum of the sizes of the entries, in its own
arithmetic; as long as the sizes together fit it, it is the sum itself, and what the next step takes
off it is never more than it. -/
theorem currentSize_run (overflow : ChronoOverflow) (config : CacheConfig)
    (ops : List (Moment × LayerOp)) :
    let layer := ops.foldl (step overflow) (new config)
    layer.currentSize = UInt64.ofNat layer.totalBytes ∧
      (layer.totalBytes < 2 ^ 64 → layer.currentSize.toNat = layer.totalBytes ∧
        ∀ op, ∀ place ∈ layer.takenAt overflow op, ∀ counter amount,
          place.1.subtraction place.2 = some (counter, amount) → amount ≤ counter) := by
  intro layer
  have haccounted : layer.Accounted := accounted_run overflow config ops
  refine ⟨haccounted, fun hlt => ?_⟩
  have hheld : layer.Held := ⟨haccounted, hlt⟩
  refine ⟨hheld.currentSize_eq, fun op place hplace counter amount hsub => ?_⟩
  exact (hheld.takenAt overflow op place hplace).subtraction_le hsub

end CacheLayer

end VedDb
