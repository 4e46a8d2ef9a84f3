import VedDb.Cache.Bound
import VedDb.Lib.Quota

/-!
# The victims of an eviction

Entries are evicted in the order of their scores until the target is freed.  The scores are whole
seconds and rounded counts: entries that tie are evicted in the order in which the concurrent map is
iterated, whichever of them was accessed later.
-/

namespace VedDb

open Comparator

namespace EvictionPolicy

variable (policy : EvictionPolicy) (now : DateTime)

/-- The comparator of `select_victims`: what is evicted first comes first. -/
def compareEntries (a b : CacheEntry) : Ordering :=
  match policy with
  | .lru => compare (policy.calculateScore now b.2) (policy.calculateScore now a.2)
  | _ => compare (policy.calculateScore now a.2) (policy.calculateScore now b.2)

/-- What the policy says of an entry that goes and one that is kept: the one was not accessed later,
or more often, or does not expire later. -/
def Precedes : EvictionPolicy → CachedValue → CachedValue → Prop
  | .lru, gone, kept => gone.lastAccessed ≤ kept.lastAccessed
  | .lfu, gone, kept => gone.accessCount ≤ kept.accessCount
  | .ttl, gone, kept =>
    match gone.expiresAt, kept.expiresAt with
    | _, none => True
    | none, some _ => False
    | some expiresAt, some expiresAt' => expiresAt ≤ expiresAt'
  | .noEviction, _, _ => True

variable {policy now}

theorem Precedes.refl (policy : EvictionPolicy) (cached : CachedValue) :
    policy.Precedes cached cached := by
  cases policy with
  | lru => exact Int.le_refl _
  | lfu => exact UInt64.le_refl _
  | ttl =>
    rw [Precedes]
    cases cached.expiresAt with
    | none => trivial
    | some expiresAt => exact Int.le_refl expiresAt
  | noEviction => trivial

theorem compare_ne_gt_iff {i j : Int} : compare i j ≠ .gt ↔ i ≤ j :=
  Ordering.isLE_iff_ne_gt.symm.trans Int.isLE_compare

theorem compareEntries_totalPreorderOn :
    TotalPreorderOn (policy.compareEntries now) fun _ => True := by
  have hints {f : CacheEntry → Int} : TotalPreorderOn (fun a b => compare (f a) (f b))
      fun _ => True :=
    { refl := fun _ => Std.ReflCmp.compare_self
      swap := fun _ _ => Std.OrientedCmp.eq_swap
      trans := fun _ _ _ hab hbc => by
        rw [compare_ne_gt_iff] at *
        exact Int.le_trans hab hbc }
  cases policy with
  | lru =>
    have hrev := hints (f := fun entry => EvictionPolicy.lru.calculateScore now entry.2)
    refine ⟨fun ha => hrev.refl ha, fun ha hb => hrev.swap hb ha, fun ha hb hc hab hbc => ?_⟩
    exact hrev.trans hc hb ha hbc hab
  | lfu => exact hints
  | ttl => exact hints
  | noEviction => exact hints

theorem selectVictims_eq (hpolicy : policy ≠ .noEviction) (candidates : List CacheEntry) :
    policy.selectVictims now candidates candidates.length =
      (candidates.mergeSort (notAfter (policy.compareEntries now))).map Prod.fst := by
  let score (entry : CacheEntry) : String × Int := (entry.1, policy.calculateScore now entry.2)
  have hsorted {le : String × Int → String × Int → Bool}
      (hle : ∀ a b, notAfter (policy.compareEntries now) a b = le (score a) (score b)) :
      (((candidates.map score).mergeSort le).take candidates.length).map Prod.fst =
        (candidates.mergeSort (notAfter (policy.compareEntries now))).map Prod.fst := by
    rw [← List.map_mergeSort (r := notAfter (policy.compareEntries now)) fun a _ b _ => hle a b,
      List.take_of_length_le (by rw [List.length_map, List.length_mergeSort]), List.map_map]
    rfl
  cases policy with
  | lru => exact hsorted fun a b => decide_eq_decide.mpr compare_ne_gt_iff
  | lfu => exact hsorted fun a b => decide_eq_decide.mpr compare_ne_gt_iff
  | ttl => exact hsorted fun a b => decide_eq_decide.mpr compare_ne_gt_iff
  | noEviction => exact absurd rfl hpolicy

end EvictionPolicy

namespace CacheLayer

def entryBytes (entry : CacheEntry) : Nat := entry.2.bytes

/-! ## What an eviction is to do -/

/-- The entries that are evicted, one after the other: they free the target or leave nothing, they
did not before the last of them, and none of them should have outlived one that is kept. -/
structure Evicts (before after : CacheLayer) (target : Nat) (evicted : List CacheEntry) : Prop where
  distinct : (evicted.map Prod.fst).Nodup
  cached : ∀ entry ∈ evicted, before.cache[entry.1]? = some entry.2
  rest : ∀ key : String, after.cache[key]? =
    if key ∈ evicted.map Prod.fst then none else before.cache[key]?
  enough : target ≤ (evicted.map entryBytes).sum ∨ ∀ key : String, after.cache[key]? = none
  noMore : ∀ first last, evicted = first ++ [last] → (first.map entryBytes).sum < target
  ordered : ∀ gone ∈ evicted, ∀ (key : String) kept, after.cache[key]? = some kept →
    before.config.evictionPolicy.Precedes gone.2 kept

/-- An eviction respects the policy of the cache.  Without eviction nothing goes. -/
def Respects (before after : CacheLayer) (target : Nat) : Prop :=
  if before.config.evictionPolicy = .noEviction then after = before
  else ∃ evicted, Evicts before after target evicted

/-- Two entries of which the second should go first, though the scores do not put it first.  The
entries before the first one do not reach the target, and those up to the second one do without
it: where the map is iterated that way, the first one goes and the second one is kept. -/
def Misplaced (layer : CacheLayer) (now : DateTime) (target : Nat) : Prop :=
  let cmp := layer.config.evictionPolicy.compareEntries now
  ∃ gone kept : CacheEntry,
    layer.cache[gone.1]? = some gone.2 ∧ layer.cache[kept.1]? = some kept.2 ∧
      ¬layer.config.evictionPolicy.Precedes gone.2 kept.2 ∧ cmp gone kept ≠ .gt ∧
      below cmp entryBytes layer.cache.toList gone < target ∧
      target + entryBytes kept ≤ upTo cmp entryBytes layer.cache.toList kept

/-! ## What the loop takes -/

variable {layer : CacheLayer} {now : DateTime} {target : UInt64}

def takeEntries (layer : CacheLayer) (entries : List CacheEntry) : CacheLayer :=
  entries.foldl (fun layer entry => (layer.take entry.1).forgetExpiry entry.1) layer

theorem getElem?_takeEntries (layer : CacheLayer) (entries : List CacheEntry) (key : String) :
    (layer.takeEntries entries).cache[key]? =
      if key ∈ entries.map Prod.fst then none else layer.cache[key]? := by
  induction entries generalizing layer with
  | nil => rfl
  | cons entry entries ih =>
    have hcache : ((layer.take entry.1).forgetExpiry entry.1).cache[key]? =
        if entry.1 = key then none else layer.cache[key]? := getElem?_take layer entry.1 key
    have hnext := ih ((layer.take entry.1).forgetExpiry entry.1)
    rw [hcache] at hnext
    rw [List.map_cons, takeEntries, List.foldl_cons]
    refine hnext.trans ?_
    by_cases hkey : entry.1 = key
    · rw [if_pos (hkey ▸ List.mem_cons_self : key ∈ entry.1 :: _), if_pos hkey, ite_self]
    · have hmem : key ∈ entry.1 :: entries.map Prod.fst ↔ key ∈ entries.map Prod.fst := by
        rw [List.mem_cons, or_iff_right (Ne.symm hkey)]
      simp only [hmem, if_neg hkey]

/-- The loop of `evict_by_policy` takes its victims until the target is reached. -/
theorem evictVictims_eq {entries : List CacheEntry} {evicted : UInt64}
    (hkeys : (entries.map Prod.fst).Nodup)
    (hcached : ∀ entry ∈ entries, layer.cache[entry.1]? = some entry.2)
    (hfit : evicted.toNat + (entries.map entryBytes).sum < 2 ^ 64) :
    evictVictims target (entries.map Prod.fst) evicted layer =
      layer.takeEntries (takeUntil entryBytes target.toNat evicted.toNat entries) := by
  induction entries generalizing layer evicted with
  | nil => rfl
  | cons entry entries ih =>
    obtain ⟨hhead, htail⟩ := List.nodup_cons.mp hkeys
    rw [List.forall_mem_cons] at hcached
    rw [List.map_cons, List.sum_cons] at hfit
    rw [List.map_cons, evictVictims, takeUntil]
    by_cases hreached : target ≤ evicted
    · rw [if_pos hreached, if_pos (UInt64.le_iff_toNat_le.mp hreached)]
      rfl
    · rw [if_neg hreached, if_neg (mt UInt64.le_iff_toNat_le.mpr hreached), hcached.1]
      dsimp only
      have hsum : (evicted + entry.2.sizeBytes).toNat = evicted.toNat + entryBytes entry := by
        rw [UInt64.toNat_add, entryBytes, CachedValue.bytes, Nat.mod_eq_of_lt]
        rw [entryBytes, CachedValue.bytes] at hfit
        omega
      rw [ih htail ?_ (by omega), hsum]
      · rfl
      · intro other hother
        have hne : entry.1 ≠ other.1 := by
          intro heq
          exact hhead (heq ▸ List.mem_map_of_mem hother)
        refine (getElem?_take layer entry.1 other.1).trans ?_
        rw [if_neg hne]
        exact hcached.2 other hother

def ranked (layer : CacheLayer) (order : CacheOrder) (now : DateTime) : List CacheEntry :=
  (order.arrange layer.cache.toList).mergeSort
    (notAfter (layer.config.evictionPolicy.compareEntries now))

variable {order : CacheOrder}

theorem ranked_stableSort (layer : CacheLayer) (order : CacheOrder) (now : DateTime) :
    StableSort (layer.config.evictionPolicy.compareEntries now)
      (order.arrange layer.cache.toList) (layer.ranked order now) :=
  stableSort_mergeSort_of_all EvictionPolicy.compareEntries_totalPreorderOn _

theorem ranked_perm (layer : CacheLayer) (order : CacheOrder) (now : DateTime) :
    (layer.ranked order now).Perm layer.cache.toList :=
  (ranked_stableSort layer order now).perm.trans (order.perm _)

theorem mem_ranked {entry : CacheEntry} :
    entry ∈ layer.ranked order now ↔ layer.cache[entry.1]? = some entry.2 :=
  (ranked_perm layer order now).mem_iff.trans Std.ExtTreeMap.mem_toList_iff_getElem?_eq_some

theorem ranked_keys_nodup (layer : CacheLayer) (order : CacheOrder) (now : DateTime) :
    ((layer.ranked order now).map Prod.fst).Nodup := by
  rw [((ranked_perm layer order now).map Prod.fst).nodup_iff,
    Std.ExtTreeMap.map_fst_toList_eq_keys]
  exact Std.ExtTreeMap.nodup_keys

/-- The entries that `evict_by_policy` evicts, in its order. -/
def victims (layer : CacheLayer) (order : CacheOrder) (now : DateTime) (target : UInt64) :
    List CacheEntry :=
  takeUntil entryBytes target.toNat 0 (layer.ranked order now)

theorem evictByPolicy_eq (hpolicy : layer.config.evictionPolicy ≠ .noEviction)
    (hmemory : layer.totalBytes < 2 ^ 64) :
    layer.evictByPolicy order now target =
      layer.takeEntries (layer.victims order now target) := by
  have hfit : (0 : UInt64).toNat + ((layer.ranked order now).map entryBytes).sum < 2 ^ 64 := by
    rw [((ranked_perm layer order now).map entryBytes).sum_eq, UInt64.toNat_zero, Nat.zero_add]
    exact hmemory
  rw [evictByPolicy, EvictionPolicy.selectVictims_eq hpolicy]
  exact evictVictims_eq (ranked_keys_nodup layer order now) (fun entry h => mem_ranked.mp h) hfit

theorem mem_victims {entry : CacheEntry} (h : entry ∈ layer.victims order now target) :
    layer.cache[entry.1]? = some entry.2 :=
  mem_ranked.mp ((takeUntil_initial _).subset h)

theorem victims_keys_nodup (layer : CacheLayer) (order : CacheOrder) (now : DateTime)
    (target : UInt64) : ((layer.victims order now target).map Prod.fst).Nodup :=
  (ranked_keys_nodup layer order now).sublist ((takeUntil_initial _).sublist.map _)

theorem mem_victims_iff {entry : CacheEntry} (h : layer.cache[entry.1]? = some entry.2) :
    entry ∈ layer.victims order now target ↔
      entry.1 ∈ (layer.victims order now target).map Prod.fst := by
  constructor
  · exact List.mem_map_of_mem
  · intro hkey
    obtain ⟨other, hother, heq⟩ := List.mem_map.mp hkey
    have hown := mem_victims hother
    rw [heq, h] at hown
    rwa [← Prod.ext heq (Option.some.inj hown).symm]

theorem evicts_of_ordered (hpolicy : layer.config.evictionPolicy ≠ .noEviction)
    (hmemory : layer.totalBytes < 2 ^ 64)
    (hordered : ∀ gone ∈ layer.victims order now target, ∀ kept : CacheEntry,
      layer.cache[kept.1]? = some kept.2 → kept ∉ layer.victims order now target →
      layer.config.evictionPolicy.Precedes gone.2 kept.2) :
    Evicts layer (layer.evictByPolicy order now target) target.toNat
      (layer.victims order now target) where
  distinct := victims_keys_nodup layer order now target
  cached entry h := mem_victims h
  rest key := by
    rw [evictByPolicy_eq hpolicy hmemory, getElem?_takeEntries]
  enough := by
    have hreaches : target.toNat ≤ 0 + ((layer.victims order now target).map entryBytes).sum ∨
        layer.victims order now target = layer.ranked order now :=
      takeUntil_reaches (layer.ranked order now)
    rcases hreaches with h | h
    · rw [Nat.zero_add] at h
      exact .inl h
    · refine .inr fun key => ?_
      rw [evictByPolicy_eq hpolicy hmemory, getElem?_takeEntries, h]
      cases hown : layer.cache[key]? with
      | none => exact ite_self none
      | some cached =>
        have hmem : (key, cached) ∈ layer.ranked order now := mem_ranked.mpr hown
        exact if_pos (List.mem_map_of_mem (f := Prod.fst) hmem)
  noMore first last h := by
    have hshort := takeUntil_short h
    rwa [Nat.zero_add] at hshort
  ordered gone hgone key kept hkept := by
    rw [evictByPolicy_eq hpolicy hmemory, getElem?_takeEntries] at hkept
    split at hkept
    next => cases hkept
    next hnot =>
      refine hordered gone hgone (key, kept) hkept ?_
      rwa [mem_victims_iff hkept]

theorem respects_iff (hpolicy : layer.config.evictionPolicy ≠ .noEviction)
    (hmemory : layer.totalBytes < 2 ^ 64) :
    layer.Respects (layer.evictByPolicy order now target) target.toNat ↔
      ∀ gone ∈ layer.victims order now target, ∀ kept : CacheEntry,
        layer.cache[kept.1]? = some kept.2 → kept ∉ layer.victims order now target →
        layer.config.evictionPolicy.Precedes gone.2 kept.2 := by
  rw [Respects, if_neg hpolicy]
  constructor
  · rintro ⟨evicted, h⟩ gone hgone kept hkept hnot
    have hlookup (key : String) := getElem?_takeEntries layer (layer.victims order now target) key
    rw [← evictByPolicy_eq hpolicy hmemory] at hlookup
    have hkeptAfter : (layer.evictByPolicy order now target).cache[kept.1]? = some kept.2 := by
      rw [hlookup, if_neg (mt (mem_victims_iff hkept).mpr hnot), hkept]
    -- The one that goes is among the entries that are said to go.
    have hgoneAfter : (layer.evictByPolicy order now target).cache[gone.1]? = none := by
      rw [hlookup, if_pos (List.mem_map_of_mem hgone)]
    have hmem : gone.1 ∈ evicted.map Prod.fst := by
      by_contra hnot
      rw [h.rest, if_neg hnot, mem_victims hgone] at hgoneAfter
      cases hgoneAfter
    obtain ⟨other, hother, heq⟩ := List.mem_map.mp hmem
    have hown := h.cached other hother
    rw [heq, mem_victims hgone] at hown
    rw [Option.some.inj hown]
    exact h.ordered other hother kept.1 kept.2 hkeptAfter
  · intro hordered
    exact ⟨_, evicts_of_ordered hpolicy hmemory hordered⟩

/-- A cache whose values are in memory evicts by its policy, however its map is iterated, exactly
when no two entries are misplaced around the target. -/
theorem evictByPolicy_respects_iff (hmemory : layer.totalBytes < 2 ^ 64) (now : DateTime)
    (target : UInt64) :
    (∀ order, layer.Respects (layer.evictByPolicy order now target) target.toNat) ↔
      ¬layer.Misplaced now target.toNat := by
  by_cases hpolicy : layer.config.evictionPolicy = .noEviction
  · refine iff_of_true (fun order => ?_) ?_
    · rw [Respects, if_pos hpolicy, evictByPolicy_noEviction hpolicy]
    · rintro ⟨gone, kept, hgone, hkept, hill, hrest⟩
      rw [hpolicy] at hill
      exact hill trivial
  · have hcmp : TotalPreorderOn (layer.config.evictionPolicy.compareEntries now) fun _ => True :=
      EvictionPolicy.compareEntries_totalPreorderOn
    have htaken := taken_sorted_iff entryBytes hcmp target.toNat (toList_nodup layer.cache)
      (fun gone kept => ¬layer.config.evictionPolicy.Precedes gone.2 kept.2)
      fun entry h => h (EvictionPolicy.Precedes.refl _ _)
    have hmem (entry : CacheEntry) :
        entry ∈ layer.cache.toList ↔ layer.cache[entry.1]? = some entry.2 :=
      Std.ExtTreeMap.mem_toList_iff_getElem?_eq_some
    have hmisplaced : layer.Misplaced now target.toNat ↔
        ∃ gone ∈ layer.cache.toList, ∃ kept ∈ layer.cache.toList,
          ¬layer.config.evictionPolicy.Precedes gone.2 kept.2 ∧
            layer.config.evictionPolicy.compareEntries now gone kept ≠ .gt ∧
            below (layer.config.evictionPolicy.compareEntries now) entryBytes layer.cache.toList
              gone < target.toNat ∧
            target.toNat + entryBytes kept ≤
              upTo (layer.config.evictionPolicy.compareEntries now) entryBytes
                layer.cache.toList kept := by
      simp only [Misplaced, hmem, exists_and_left]
    rw [hmisplaced, ← htaken]
    simp only [respects_iff hpolicy hmemory, hmem, not_not, victims]
    constructor
    · intro h arranged harranged sorted hsorted gone hgone kept hkept hleft
      -- The map may be iterated in this arrangement.
      classical
      let order : CacheOrder :=
        { arrange := fun entries => if entries = layer.cache.toList then arranged else entries
          perm := fun entries => by
            split
            next heq => exact heq ▸ harranged
            next => exact .rfl }
      have harrange : order.arrange layer.cache.toList = arranged := if_pos rfl
      have hranked := ranked_stableSort layer order now
      rw [harrange] at hranked
      rw [StableSort.unique (hcmp.mono fun _ _ => trivial) hsorted hranked] at hgone hleft
      exact h order gone hgone kept hkept hleft
    · intro h order
      exact h _ (order.perm _) _ (ranked_stableSort layer order now)

def accessedAt (instant : DateTime) : CachedValue :=
  { value := .string .null, expiresAt := none, lastAccessed := instant, accessCount := 0,
    sizeBytes := 1 }

/-- Two entries accessed at two instants. -/
def accessedTwice (first second : DateTime) : CacheLayer :=
  { new { maxSizeBytes := 10, evictionPolicy := .lru, defaultTtl := none } with
    cache := (Std.ExtTreeMap.insert ∅ "a" (accessedAt first)).insert "b" (accessedAt second) }

/-- Two entries accessed in different seconds. -/
theorem evictByPolicy_respects_iff_apart :
    (∀ order, Respects (accessedTwice 0 5000000000)
      (evictByPolicy order (accessedTwice 0 5000000000) 9000000000 1) 1) ↔
      ¬Misplaced (accessedTwice 0 5000000000) 9000000000 1 :=
  evictByPolicy_respects_iff (by decide) 9000000000 1

/-- Of two entries accessed in one second, the map may be iterated from the one accessed last: it
goes, and the other one is kept. -/
theorem evictByPolicy_last_accessed :
    ¬Respects (accessedTwice 500000000 0)
      (evictByPolicy .sorted (accessedTwice 500000000 0) 900000000 1) 1 := by
  have hpolicy : (accessedTwice 500000000 0).config.evictionPolicy ≠ .noEviction := by decide
  have hentries : (accessedTwice 500000000 0).cache.toList =
      [("a", accessedAt 500000000), ("b", accessedAt 0)] := rfl
  have hranked : (accessedTwice 500000000 0).ranked .sorted 900000000 =
      [("a", accessedAt 500000000), ("b", accessedAt 0)] := by
    rw [ranked, CacheOrder.sorted, hentries]
    refine List.mergeSort_of_pairwise ?_
    simp only [id, List.pairwise_pair]
    decide
  have hvictims : (accessedTwice 500000000 0).victims .sorted 900000000 1 =
      [("a", accessedAt 500000000)] := by
    rw [victims, hranked]
    rfl
  intro h
  have hrespects : Respects (accessedTwice 500000000 0)
      (evictByPolicy .sorted (accessedTwice 500000000 0) 900000000 1) (1 : UInt64).toNat := h
  have hall := (respects_iff hpolicy (by decide)).mp hrespects
    ("a", accessedAt 500000000) (by rw [hvictims]; exact List.mem_cons_self)
    ("b", accessedAt 0) rfl (by rw [hvictims]; simp)
  have hle : (500000000 : Int) ≤ 0 := hall
  exact absurd hle (by decide)

end CacheLayer

end VedDb
