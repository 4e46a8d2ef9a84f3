import Mathlib.Tactic.Linarith
import VedDb.Cache.Accounting

/-!
# The bound on the size

`ensure_space` evicts a fifth more than is missing, and stops when nothing is left.  A value that is
larger than the cache may be is stored after everything else is gone.
-/

namespace VedDb

/-- A double loses at most one part in 2^52 of a whole number. -/
theorem F64.round_ge (n : Nat) : n * (2 ^ 52 - 1) ≤ F64.round n * 2 ^ 52 := by
  have hlow := (F64.round_bounds n).1
  have hsplit := Nat.div_add_mod n (2 ^ (Nat.log2 n - 52))
  have hrest := Nat.mod_lt n (Nat.two_pow_pos (Nat.log2 n - 52))
  by_cases hsmall : n < 2 ^ 53
  · rw [F64.round_of_lt hsmall]
    exact Nat.mul_le_mul_left n (Nat.sub_le _ _)
  · have hlog : 52 ≤ Nat.log2 n := (Nat.le_log2 (by omega)).mpr (by omega)
    have hunit : 2 ^ (Nat.log2 n - 52) * 2 ^ 52 ≤ n := by
      rw [← Nat.pow_add, Nat.sub_add_cancel hlog]
      exact Nat.log2_self_le (by omega)
    rw [Nat.mul_comm] at hlow
    generalize 2 ^ (Nat.log2 n - 52) * (n / 2 ^ (Nat.log2 n - 52)) = down at hlow hsplit
    generalize n % 2 ^ (Nat.log2 n - 52) = rest at hsplit hrest
    generalize 2 ^ (Nat.log2 n - 52) = unit at hrest hunit
    generalize F64.round n = rounded at hlow
    norm_num at hunit ⊢
    linarith

namespace CacheLayer

/-- The target is at least what is missing, rounding included. -/
theorem le_evictSize {n : Nat} (h : n < 2 ^ 64) : n ≤ evictSize n := by
  have hfirst := F64.round_ge n
  have hsecond := F64.round_ge (F64.round n * 5404319552844595)
  rw [evictSize]
  refine Nat.le_min.mpr ⟨?_, by omega⟩
  rw [Nat.le_div_iff_mul_le (Nat.two_pow_pos 52)]
  generalize F64.round (F64.round n * 5404319552844595) = product at hsecond
  generalize F64.round n = rounded at hfirst hsecond
  norm_num at hfirst hsecond ⊢
  linarith

/-! ## What eviction frees -/

variable {layer : CacheLayer} {key : String} {order : CacheOrder} {now : DateTime}

theorem mem_selectVictims {policy : EvictionPolicy} (hpolicy : policy ≠ .noEviction)
    {candidates : List CacheEntry} {entry : CacheEntry} (hmem : entry ∈ candidates) :
    entry.1 ∈ policy.selectVictims now candidates candidates.length := by
  let scored := candidates.map fun entry => (entry.1, policy.calculateScore now entry.2)
  have hall (le : String × Int → String × Int → Bool) :
      entry.1 ∈ ((scored.mergeSort le).take candidates.length).map Prod.fst := by
    have hlen : (scored.mergeSort le).length ≤ candidates.length := by
      rw [List.length_mergeSort, List.length_map]
    rw [List.take_of_length_le hlen]
    refine List.mem_map.mpr ⟨(entry.1, policy.calculateScore now entry.2), ?_, rfl⟩
    exact List.mem_mergeSort.mpr (List.mem_map_of_mem hmem)
  cases policy with
  | lru => exact hall _
  | lfu => exact hall _
  | ttl => exact hall _
  | noEviction => exact absurd rfl hpolicy

theorem totalBytes_evictVictims_le (target : UInt64) (victims : List String) (evicted : UInt64)
    (layer : CacheLayer) :
    (evictVictims target victims evicted layer).totalBytes ≤ layer.totalBytes := by
  apply evictVictims_keeps (P := fun after => after.totalBytes ≤ layer.totalBytes)
  · intro after key h
    exact (totalBytes_take_le after key).trans h
  · exact Nat.le_refl _

theorem Covers.getElem?_eq_none {after : CacheLayer} (h : layer.Covers after)
    (hnone : layer.cache[key]? = none) : after.cache[key]? = none := by
  cases hown : after.cache[key]? with
  | none => rfl
  | some cached =>
    have hpeek := h key cached.value (by rw [peek, hown]; rfl)
    rw [peek, hnone] at hpeek
    cases hpeek

theorem evictVictims_frees (target : UInt64) (victims : List String) {evicted : UInt64}
    (h : evicted.toNat + layer.totalBytes < 2 ^ 64) :
    target.toNat ≤ evicted.toNat +
        (layer.totalBytes - (evictVictims target victims evicted layer).totalBytes) ∨
      ∀ key ∈ victims, (evictVictims target victims evicted layer).cache[key]? = none := by
  induction victims generalizing evicted layer with
  | nil =>
    refine Or.inr fun key hkey => ?_
    cases hkey
  | cons key victims ih =>
    have hcovers := covers_evictVictims target victims
    rw [evictVictims]
    split
    next htarget =>
      exact Or.inl (Nat.le_trans (UInt64.le_iff_toNat_le.mp htarget) (Nat.le_add_right _ _))
    next =>
      cases hown : layer.cache[key]? with
      | none =>
        dsimp only
        refine (ih h).imp_right fun hgone => List.forall_mem_cons.mpr ⟨?_, hgone⟩
        exact (hcovers evicted layer).getElem?_eq_none hown
      | some cached =>
        dsimp only
        have htotal := totalBytes_of_some hown
        have hsame : ((layer.take key).forgetExpiry key).totalBytes =
            (layer.take key).totalBytes := rfl
        have hsum : (evicted + cached.sizeBytes).toNat = evicted.toNat + cached.bytes := by
          rw [UInt64.toNat_add, CachedValue.bytes, Nat.mod_eq_of_lt]
          rw [CachedValue.bytes] at htotal
          omega
        have hnext := @ih ((layer.take key).forgetExpiry key) (evicted + cached.sizeBytes)
          (by omega)
        have hle := totalBytes_evictVictims_le target victims (evicted + cached.sizeBytes)
          ((layer.take key).forgetExpiry key)
        refine hnext.imp (fun hfreed => by omega) fun hgone =>
          List.forall_mem_cons.mpr ⟨?_, hgone⟩
        apply (hcovers _ ((layer.take key).forgetExpiry key)).getElem?_eq_none
        show (layer.take key).cache[key]? = none
        rw [getElem?_take, if_pos rfl]

theorem totalBytes_of_empty (h : ∀ key : String, layer.cache[key]? = none) :
    layer.totalBytes = 0 := by
  have hempty : layer.cache = ∅ := by
    apply Std.ExtTreeMap.ext_getElem?
    intro key
    rw [h key]
    exact Std.ExtTreeMap.getElem?_empty.symm
  rw [totalBytes, hempty, total_empty]

theorem evictByPolicy_frees (hpolicy : layer.config.evictionPolicy ≠ .noEviction)
    (h : layer.totalBytes < 2 ^ 64) (target : UInt64) :
    target.toNat ≤ layer.totalBytes - (layer.evictByPolicy order now target).totalBytes ∨
      (layer.evictByPolicy order now target).totalBytes = 0 := by
  have hzero : (0 : UInt64).toNat + layer.totalBytes < 2 ^ 64 := by
    rw [UInt64.toNat_zero, Nat.zero_add]
    exact h
  have hfrees := evictVictims_frees target (layer.config.evictionPolicy.selectVictims now
    (order.arrange layer.cache.toList) (order.arrange layer.cache.toList).length) hzero
  rw [UInt64.toNat_zero, Nat.zero_add] at hfrees
  refine hfrees.imp_right fun hgone => totalBytes_of_empty fun key => ?_
  cases hown : layer.cache[key]? with
  | none => exact (covers_evictByPolicy order layer now target).getElem?_eq_none hown
  | some cached =>
    have hentry : (key, cached) ∈ order.arrange layer.cache.toList :=
      (order.perm _).mem_iff.mpr (Std.ExtTreeMap.mem_toList_iff_getElem?_eq_some.mpr hown)
    exact hgone key (mem_selectVictims hpolicy hentry)

/-! ## Writes -/

/-- What a value needs beyond the bound. -/
def missing (layer : CacheLayer) (value : CacheData) : Nat :=
  layer.currentSize.toNat + value.sizeBytes - layer.config.maxSizeBytes.toNat

/-- What is evicted for a write. -/
def freed (layer : CacheLayer) (moment : Moment) (key : String) (value : CacheData)
    (ttl : Option Nat) : Nat :=
  let cached := cachedValue moment.now value ttl
  let spaced :=
    (layer.recordExpiry key cached.expiresAt).ensureSpace moment.order moment.now cached.sizeBytes
  layer.currentSize.toNat - spaced.2.currentSize.toNat

/-- After a write that succeeds the size is within the bound, and what was evicted is at least what
was missing. -/
def SizeBounded (overflow : ChronoOverflow) (layer : CacheLayer) (op : Moment × LayerOp) : Prop :=
  ∀ key value ttl after, op.2.write layer = some (key, value, ttl) →
    layer.trySet overflow op.1 key value ttl = some (.ok (), after) →
    after.currentSize ≤ layer.config.maxSizeBytes ∧
      layer.missing value ≤ layer.freed op.1 key value ttl

/-- The values are in memory, so that their sizes together fit the counter. -/
def InMemory (layer : CacheLayer) (op : Moment × LayerOp) : Prop :=
  ∀ key value ttl, op.2.write layer = some (key, value, ttl) →
    layer.totalBytes + value.sizeBytes < 2 ^ 64

/-- What is written is no larger than the cache may be, where entries may be evicted for it. -/
def RoomFor (overflow : ChronoOverflow) (layer : CacheLayer) (op : Moment × LayerOp) : Prop :=
  ∀ key value ttl, op.2.write layer = some (key, value, ttl) →
    layer.config.evictionPolicy = .noEviction ∨ ttl.any (overflow op.1.now) = true ∨
      value.sizeBytes ≤ layer.config.maxSizeBytes.toNat

section

variable {size : UInt64}

/-- Where there is no room and entries may be evicted, the policy is asked for a target that is at
least what is missing. -/
theorem ensureSpace_frees (h : layer.Held) (hmemory : layer.totalBytes + size.toNat < 2 ^ 64)
    (hok : (layer.ensureSpace order now size).1 = .ok ()) :
    layer.totalBytes + size.toNat - layer.config.maxSizeBytes.toNat ≤
        layer.totalBytes - (layer.ensureSpace order now size).2.totalBytes ∨
      (layer.ensureSpace order now size).2.totalBytes = 0 := by
  have hsum : (layer.currentSize + size).toNat = layer.totalBytes + size.toNat := by
    rw [UInt64.toNat_add, h.currentSize_eq, Nat.mod_eq_of_lt hmemory]
  unfold ensureSpace at hok ⊢
  split at hok
  next hroom =>
    rw [UInt64.le_iff_toNat_le, hsum] at hroom
    rw [if_pos (by rw [UInt64.le_iff_toNat_le, hsum]; exact hroom)]
    exact Or.inl (by omega)
  next hroom =>
    split at hok
    next => cases hok
    next hpolicy =>
      rw [if_neg hroom, if_neg hpolicy]
      have hover : layer.config.maxSizeBytes.toNat < layer.totalBytes + size.toNat := by
        rw [UInt64.le_iff_toNat_le, hsum] at hroom
        exact Nat.not_le.mp hroom
      have htarget : (layer.currentSize + size - layer.config.maxSizeBytes).toNat =
          layer.totalBytes + size.toNat - layer.config.maxSizeBytes.toNat := by
        rw [UInt64.toNat_sub_of_le _ _ (UInt64.le_iff_toNat_le.mpr (by omega)), hsum]
      have hle := le_evictSize
        (layer.currentSize + size - layer.config.maxSizeBytes).toNat_lt
      have hlt : evictSize (layer.currentSize + size - layer.config.maxSizeBytes).toNat <
          2 ^ 64 := by
        have hcap : evictSize (layer.currentSize + size - layer.config.maxSizeBytes).toNat ≤
            2 ^ 64 - 1 := Nat.min_le_right _ _
        exact Nat.lt_of_le_of_lt hcap (by decide)
      refine (evictByPolicy_frees hpolicy h.totalBytes_lt _).imp_left fun hfreed => ?_
      rw [UInt64.toNat_ofNat_of_lt' hlt] at hfreed
      exact (Nat.le_of_eq htarget.symm).trans (hle.trans hfreed)

end

theorem bounded_iff {moment : Moment} {value : CacheData} {ttl : Option Nat} {after : CacheLayer}
    (haccounted : layer.Accounted) (hmemory : layer.totalBytes + value.sizeBytes < 2 ^ 64)
    (h : layer.setWithTtl moment.order moment.now key value ttl = (.ok (), after)) :
    (after.currentSize ≤ layer.config.maxSizeBytes ∧
        layer.missing value ≤ layer.freed moment key value ttl) ↔
      value.sizeBytes ≤ layer.config.maxSizeBytes.toNat := by
  obtain ⟨hok, hafter⟩ := setWithTtl_eq_ok h
  rw [missing, freed]
  generalize hcached : cachedValue moment.now value ttl = cached at hok hafter ⊢
  have hsize : cached.sizeBytes.toNat = value.sizeBytes := by
    rw [← hcached, cachedValue_sizeBytes]
    exact UInt64.toNat_ofNat_of_lt' (Nat.lt_of_le_of_lt (Nat.le_add_left _ _) hmemory)
  have hheld : layer.Held := ⟨haccounted, Nat.lt_of_le_of_lt (Nat.le_add_right _ _) hmemory⟩
  have hrecorded := hheld.recordExpiry key cached.expiresAt
  have htotal : (layer.recordExpiry key cached.expiresAt).totalBytes = layer.totalBytes := by
    rw [totalBytes, (recordExpiry_config layer key _).2]
    rfl
  have hconfig := (recordExpiry_config layer key cached.expiresAt).1
  have hfrees := ensureSpace_frees hrecorded (by rw [htotal, hsize]; exact hmemory) hok
  have hspaced := ensureSpace_keeps (P := Held) (fun key h => (h.take key).forgetExpiry key)
    moment.order moment.now cached.sizeBytes hrecorded
  have hless := ensureSpace_keeps (P := fun after => after.totalBytes ≤ layer.totalBytes)
    (fun {after} key h => (totalBytes_take_le after key).trans h) moment.order moment.now
    cached.sizeBytes (Nat.le_of_eq htotal)
  rw [htotal, hconfig, hsize] at hfrees
  generalize ((layer.recordExpiry key cached.expiresAt).ensureSpace moment.order moment.now
    cached.sizeBytes).2 = spaced at hafter hfrees hspaced hless ⊢
  have hstored := totalBytes_store spaced key cached
  have htaken := totalBytes_take_le spaced key
  rw [CachedValue.bytes, hsize] at hstored
  have hafterHeld : after.Held := by
    rw [hafter]
    exact ⟨hspaced.accounted.store key cached, by omega⟩
  rw [UInt64.le_iff_toNat_le, hafterHeld.currentSize_eq, hheld.currentSize_eq,
    hspaced.currentSize_eq, hafter, hstored]
  omega

/-- Along a run of values in memory the bound is kept, and eviction frees what is missing, exactly
when no value that is written is larger than the bound, where entries may be evicted. -/
theorem always_sizeBounded_iff (overflow : ChronoOverflow) {config : CacheConfig}
    {ops : List (Moment × LayerOp)} (h : MeetsAlong (step overflow) InMemory (new config) ops) :
    MeetsAlong (step overflow) (SizeBounded overflow) (new config) ops ↔
      MeetsAlong (step overflow) (RoomFor overflow) (new config) ops := by
  apply MeetsAlong.congr
  refine h.imp (I := Accounted) (fun h _ => h.step overflow _) ?_ (accounted_new config)
  intro layer op haccounted hmemory
  obtain ⟨moment, op⟩ := op
  constructor
  · intro hbounded key value ttl hwrite
    by_cases hpolicy : layer.config.evictionPolicy = .noEviction
    · exact Or.inl hpolicy
    · cases hpanics : ttl.any (overflow moment.now) with
      | true => exact Or.inr (Or.inl rfl)
      | false =>
        refine Or.inr (Or.inr ?_)
        have hok : (layer.setWithTtl moment.order moment.now key value ttl).1 = .ok () :=
          setWithTtl_eq_ok_iff.mpr (Or.inl hpolicy)
        have hset : layer.setWithTtl moment.order moment.now key value ttl =
            (.ok (), (layer.setWithTtl moment.order moment.now key value ttl).2) :=
          Prod.ext hok rfl
        have htry : layer.trySet overflow moment key value ttl =
            some (.ok (), (layer.setWithTtl moment.order moment.now key value ttl).2) := by
          rw [trySet_of_not hpanics, ← hset]
        exact (bounded_iff haccounted (hmemory key value ttl hwrite) hset).mp
          (hbounded key value ttl _ hwrite htry)
  · intro hroom key value ttl after hwrite htry
    have hfits := hmemory key value ttl hwrite
    unfold trySet at htry
    split at htry
    next => cases htry
    next hpanics =>
      have hset := Option.some.inj htry
      refine (bounded_iff haccounted hfits hset).mpr ?_
      rcases hroom key value ttl hwrite with hpolicy | hpanic | hle
      · -- a cache that may not evict has room for what it takes
        have hok : (layer.setWithTtl moment.order moment.now key value ttl).1 = .ok () := by
          rw [hset]
        have hspace := (setWithTtl_eq_ok_iff.mp hok).resolve_left (not_not.mpr hpolicy)
        have hheld : layer.Held :=
          ⟨haccounted, Nat.lt_of_le_of_lt (Nat.le_add_right _ _) hfits⟩
        rw [UInt64.le_iff_toNat_le, UInt64.toNat_add, hheld.currentSize_eq,
          UInt64.toNat_ofNat_of_lt' (Nat.lt_of_le_of_lt (Nat.le_add_left _ _) hfits),
          Nat.mod_eq_of_lt hfits] at hspace
        exact (Nat.le_add_left _ _).trans hspace
      · exact absurd hpanic hpanics
      · exact hle

def tenBytes : CacheConfig :=
  { maxSizeBytes := 10, evictionPolicy := .lru, defaultTtl := none }

/-- Two numbers of eight bytes, of which the second evicts the first. -/
def twoNumbers : List (Moment × LayerOp) :=
  [(⟨0, .sorted⟩, .set "a" (.string (.int64 1))), (⟨1, .sorted⟩, .set "b" (.string (.int64 2)))]

theorem always_sizeBounded_iff_number :
    MeetsAlong (step fun _ _ => false) (SizeBounded fun _ _ => false) (new tenBytes) twoNumbers ∧
      (twoNumbers.foldl (step fun _ _ => false) (new tenBytes)).cache.keys = ["b"] := by
  have hmemory : MeetsAlong (step fun _ _ => false) InMemory (new tenBytes) twoNumbers := by
    refine ⟨?_, ?_, trivial⟩
    · rintro key value ttl ⟨⟩
      decide
    · rintro key value ttl ⟨⟩
      decide
  refine ⟨(always_sizeBounded_iff (fun _ _ => false) hmemory).mpr ⟨?_, ?_, trivial⟩,
    by decide +kernel⟩
  · rintro key value ttl ⟨⟩
    exact .inr (.inr (by decide))
  · rintro key value ttl ⟨⟩
    exact .inr (.inr (by decide))

/-- A text of twenty bytes is stored in a cache of ten. -/
theorem not_sizeBounded :
    ¬MeetsAlong (step fun _ _ => false) (SizeBounded fun _ _ => false) (new tenBytes)
      [(⟨0, .sorted⟩, .set "a" (.string (.string "twenty bytes of text")))] := by
  rintro ⟨hbounded, _⟩
  have hsize := (hbounded "a" _ none _ rfl rfl).1
  exact absurd hsize (by decide)

end CacheLayer

end VedDb
