import Mathlib.Algebra.BigOperators.Group.Finset.Basic
import Mathlib.Algebra.BigOperators.Group.List.Lemmas
import Mathlib.Algebra.GroupWithZero.Nat
import Mathlib.Data.List.Dedup
import VedDb.Lib.Lookups

/-!
# Totals over a map

The sum of a measure over the entries of a map, and what an insertion and an erasure do to it.
-/

namespace VedDb

section

variable {K V : Type} [Ord K] [Std.TransOrd K] [Std.LawfulEqOrd K] [DecidableEq K]
variable {map : Std.ExtTreeMap K V} {key : K} {value : V} (measure : V → Nat)

omit [Std.LawfulEqOrd K] [DecidableEq K] in
theorem toList_nodup (map : Std.ExtTreeMap K V) : map.toList.Nodup := by
  refine map.distinct_keys_toList.imp ?_
  intro a b hne heq
  rw [heq] at hne
  exact hne Std.ReflOrd.compare_self

theorem toList_perm_of_some (h : map[key]? = some value) :
    map.toList.Perm ((key, value) :: (map.erase key).toList) := by
  have hnot : (key, value) ∉ (map.erase key).toList := by
    intro hmem
    rw [Std.ExtTreeMap.mem_toList_iff_getElem?_eq_some, lookup_erase, if_pos rfl] at hmem
    cases hmem
  rw [List.perm_ext_iff_of_nodup (toList_nodup map)
    (List.nodup_cons.mpr ⟨hnot, toList_nodup _⟩)]
  intro entry
  obtain ⟨other, own⟩ := entry
  rw [List.mem_cons, Std.ExtTreeMap.mem_toList_iff_getElem?_eq_some,
    Std.ExtTreeMap.mem_toList_iff_getElem?_eq_some, lookup_erase, Prod.mk.injEq]
  by_cases hkey : key = other
  · rw [if_pos hkey, ← hkey, h, Option.some.injEq]
    exact ⟨fun hvalue => Or.inl ⟨rfl, hvalue.symm⟩,
      fun hor => hor.elim (fun heq => heq.2.symm) fun h => (nomatch h)⟩
  · rw [if_neg hkey]
    exact ⟨Or.inr, fun hor => hor.resolve_left fun heq => hkey heq.1.symm⟩

theorem erase_insert_self (map : Std.ExtTreeMap K V) (key : K) (value : V) :
    (map.insert key value).erase key = map.erase key := by
  apply Std.ExtTreeMap.ext_getElem?
  intro other
  rw [lookup_erase, lookup_erase, lookup_insert]
  by_cases hkey : key = other
  · rw [if_pos hkey, if_pos hkey]
  · rw [if_neg hkey, if_neg hkey, if_neg hkey]

theorem erase_of_none (h : map[key]? = none) : map.erase key = map := by
  apply Std.ExtTreeMap.ext_getElem?
  intro other
  rw [lookup_erase]
  split
  next hkey => rw [← hkey, h]
  next => rfl

def total (map : Std.ExtTreeMap K V) : Nat := (map.toList.map fun entry => measure entry.2).sum

omit [Std.LawfulEqOrd K] [DecidableEq K] in
@[simp] theorem total_empty : total measure (∅ : Std.ExtTreeMap K V) = 0 := by
  rw [total, Std.ExtTreeMap.toList_eq_nil_iff.mpr rfl]
  rfl

theorem total_of_some (h : map[key]? = some value) :
    total measure map = measure value + total measure (map.erase key) := by
  rw [total, ((toList_perm_of_some h).map _).sum_nat]
  rfl

theorem total_insert (map : Std.ExtTreeMap K V) (key : K) (value : V) :
    total measure (map.insert key value) = measure value + total measure (map.erase key) := by
  have hown : (map.insert key value)[key]? = some value := by
    rw [lookup_insert, if_pos rfl]
  rw [total_of_some measure hown, erase_insert_self]

theorem le_total (h : map[key]? = some value) : measure value ≤ total measure map := by
  rw [total_of_some measure h]
  exact Nat.le_add_right _ _

end

/-! ## Totals over a function -/

/-- The sum over a function after it is changed at one place. -/
theorem sum_update_add {ι α : Type} [Fintype ι] [DecidableEq ι] (measure : α → Nat) (f : ι → α)
    (i : ι) (a : α) :
    ∑ j, measure (Function.update f i a j) + measure (f i) = ∑ j, measure (f j) + measure a := by
  have hrest : ∑ j ∈ Finset.univ.erase i, measure (Function.update f i a j) =
      ∑ j ∈ Finset.univ.erase i, measure (f j) := by
    apply Finset.sum_congr rfl
    intro j hj
    rw [Function.update_of_ne (Finset.ne_of_mem_erase hj)]
  rw [← Finset.add_sum_erase _ _ (Finset.mem_univ i), hrest, Function.update_self,
    ← Finset.add_sum_erase _ (fun j => measure (f j)) (Finset.mem_univ i)]
  omega

/-! ## Counters of 64 bits -/

theorem toNat_add_one {counter : UInt64} (h : counter.toNat + 1 < 2 ^ 64) :
    (counter + 1).toNat = counter.toNat + 1 := by
  rw [UInt64.toNat_add]
  exact Nat.mod_eq_of_lt h

theorem toNat_add_ofNat {counter : UInt64} {n : Nat} (h : counter.toNat + n < 2 ^ 64) :
    (counter + UInt64.ofNat n).toNat = counter.toNat + n := by
  rw [UInt64.toNat_add, UInt64.toNat_ofNat', Nat.add_mod_mod]
  exact Nat.mod_eq_of_lt h

theorem toNat_sub_ofNat {counter : UInt64} {n : Nat} (h : n ≤ counter.toNat) :
    (counter - UInt64.ofNat n).toNat = counter.toNat - n := by
  have hn : (UInt64.ofNat n).toNat = n :=
    UInt64.toNat_ofNat_of_lt' (Nat.lt_of_le_of_lt h counter.toNat_lt)
  rw [UInt64.toNat_sub_of_le _ _ (by rw [UInt64.le_iff_toNat_le, hn]; exact h), hn]

theorem toNat_sub_one {counter : UInt64} (h : 1 ≤ counter.toNat) :
    (counter - 1).toNat = counter.toNat - 1 :=
  UInt64.toNat_sub_of_le counter 1 h

theorem toNat_add_one_ne (counter : UInt64) : (counter + 1).toNat ≠ counter.toNat := by
  have hlt := counter.toNat_lt
  rw [UInt64.toNat_add, show (1 : UInt64).toNat = 1 from rfl]
  omega

/-- A counter meets a sum again exactly when what is added is what the sum grows by, and fits. -/
theorem toNat_add_eq_iff {counter : UInt64} {added before old new : Nat}
    (h : counter.toNat = old + before) :
    (counter + UInt64.ofNat added).toNat = new + before ↔
      (old + added) % 2 ^ 64 = new % 2 ^ 64 ∧ new + before < 2 ^ 64 := by
  rw [UInt64.toNat_add, UInt64.toNat_ofNat', h]
  omega

/-!
## Groups

The elements of a list folded into a map, each into the accumulator of its key.  What a key holds in
the end is the fold over the elements of that key, in the order of the list.  Where the number of
keys is limited, the fold fails as soon as there would be too many.
-/

namespace Groups

variable {α K β : Type} [Ord K] [Std.TransOrd K] [Std.LawfulEqOrd K] [DecidableEq K]

/-- The accumulator of the key of an element takes the element in. -/
def step (key : α → K) (start : K → β) (add : β → α → β) (groups : Std.ExtTreeMap K β) (a : α) :
    Std.ExtTreeMap K β :=
  groups.insert (key a) (add ((groups[key a]?).getD (start (key a))) a)

/-- The elements of a key. -/
def ofKey (key : α → K) (l : List α) (k : K) : List α := l.filter fun a => key a = k

variable {key : α → K} {start : K → β} {add : β → α → β} {groups : Std.ExtTreeMap K β} {l : List α}

omit [Ord K] [Std.TransOrd K] [Std.LawfulEqOrd K] in
theorem ofKey_cons (a : α) (l : List α) (k : K) :
    ofKey key (a :: l) k = if key a = k then a :: ofKey key l k else ofKey key l k := by
  rw [ofKey, List.filter_cons]
  simp only [decide_eq_true_eq]
  rfl

omit [Ord K] [Std.TransOrd K] [Std.LawfulEqOrd K] in
theorem ofKey_eq_nil {k : K} (h : k ∉ l.map key) : ofKey key l k = [] := by
  rw [ofKey, List.filter_eq_nil_iff]
  intro a ha heq
  exact h (List.mem_map.mpr ⟨a, ha, of_decide_eq_true heq⟩)

theorem lookup_foldl_step (k : K) :
    (l.foldl (step key start add) groups)[k]? =
      if k ∈ l.map key then some ((ofKey key l k).foldl add ((groups[k]?).getD (start k)))
      else groups[k]? := by
  induction l generalizing groups with
  | nil => rfl
  | cons a l ih =>
    rw [List.foldl_cons, ih, step, lookup_insert, ofKey_cons, List.map_cons]
    by_cases hkey : key a = k
    · subst hkey
      rw [if_pos rfl, if_pos rfl, if_pos List.mem_cons_self, Option.getD_some, List.foldl_cons]
      split
      next => rfl
      next hnone => rw [ofKey_eq_nil hnone, List.foldl_nil]
    · rw [if_neg hkey, if_neg hkey]
      have hmem : k ∈ key a :: l.map key ↔ k ∈ l.map key := by
        rw [List.mem_cons, or_iff_right (Ne.symm hkey)]
      simp only [hmem]

/-- From an empty map the keys are those of the list. -/
theorem lookup_grouped (k : K) :
    (l.foldl (step key start add) ∅)[k]? =
      if k ∈ l.map key then some ((ofKey key l k).foldl add (start k)) else none :=
  lookup_foldl_step k

/-- The groups of a list, in any order, are its keys with what the fold makes of each. -/
theorem toList_grouped_perm :
    ((l.foldl (step key start add) ∅).toList).Perm
      ((l.map key).dedup.map fun k => (k, (ofKey key l k).foldl add (start k))) := by
  have hnodup : ((l.map key).dedup.map fun k =>
      (k, (ofKey key l k).foldl add (start k))).Nodup :=
    (List.nodup_dedup _).map fun k k' h => congrArg Prod.fst h
  rw [List.perm_ext_iff_of_nodup (toList_nodup _) hnodup]
  rintro ⟨k, value⟩
  rw [Std.ExtTreeMap.mem_toList_iff_getElem?_eq_some, lookup_grouped]
  constructor
  · intro h
    split at h
    next hmem =>
      rw [← Option.some.inj h]
      exact List.mem_map.mpr ⟨k, List.mem_dedup.mpr hmem, rfl⟩
    next => cases h
  · intro h
    obtain ⟨k', hmem, heq⟩ := List.mem_map.mp h
    obtain ⟨rfl, rfl⟩ := Prod.mk.inj heq
    exact if_pos (List.mem_dedup.mp hmem)

theorem size_grouped : (l.foldl (step key start add) ∅).size = (l.map key).dedup.length := by
  rw [← Std.ExtTreeMap.length_toList, toList_grouped_perm.length_eq, List.length_map]

omit [Ord K] [Std.TransOrd K] [Std.LawfulEqOrd K] in
/-- The groups have all elements between them. -/
theorem sum_length_ofKey (key : α → K) (l : List α) :
    ((l.map key).dedup.map fun k => (ofKey key l k).length).sum = l.length := by
  have hcount (k : K) : (ofKey key l k).length = (l.map key).count k := by
    rw [ofKey, ← List.countP_eq_length_filter, List.count, List.countP_map]
    rfl
  simp only [hcount]
  rw [List.sum_map_count_dedup_eq_length, List.length_map]

/-! ## A limit on the keys -/

/-- The fold, unless there would be more keys than the limit. -/
def within (key : α → K) (start : K → β) (add : β → α → β) (limit : Nat) : List α →
    Std.ExtTreeMap K β → Option (Std.ExtTreeMap K β)
  | [], groups => some groups
  | a :: l, groups =>
    if !groups.contains (key a) && decide (limit ≤ groups.size) then none
    else within key start add limit l (step key start add groups a)

omit [Std.LawfulEqOrd K] [DecidableEq K] in
theorem size_le_size_foldl : groups.size ≤ (l.foldl (step key start add) groups).size := by
  induction l generalizing groups with
  | nil => exact Nat.le_refl _
  | cons a l ih => exact Std.ExtTreeMap.size_le_size_insert.trans ih

omit [Std.LawfulEqOrd K] [DecidableEq K] in
theorem within_eq {limit : Nat} (h : groups.size ≤ limit) :
    within key start add limit l groups =
      if (l.foldl (step key start add) groups).size ≤ limit then
        some (l.foldl (step key start add) groups)
      else none := by
  induction l generalizing groups with
  | nil => exact (if_pos h).symm
  | cons a l ih =>
    have hsize : (step key start add groups a).size =
        if groups.contains (key a) then groups.size else groups.size + 1 :=
      Std.ExtTreeMap.size_insert
    have hgrows : (step key start add groups a).size ≤
        (l.foldl (step key start add) (step key start add groups a)).size := size_le_size_foldl
    rw [within, List.foldl_cons]
    cases hcontains : groups.contains (key a) with
    | true =>
      rw [hcontains, if_pos rfl] at hsize
      exact ih (by omega)
    | false =>
      rw [hcontains, if_neg Bool.false_ne_true] at hsize
      by_cases hfull : limit ≤ groups.size
      · have hover : ¬(l.foldl (step key start add) (step key start add groups a)).size ≤
            limit := by omega
        rw [decide_eq_true hfull, if_neg hover]
        rfl
      · rw [decide_eq_false hfull]
        exact ih (by omega)

end Groups

end VedDb
