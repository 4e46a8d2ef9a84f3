import VedDb.Cache.Data
import VedDb.Floats
import VedDb.Lib.StableSort

/-!
# Lists and sorted sets

`CacheList::lindex`, `CacheList::lrange` and `CacheSortedSet::zrange` of `cache/data_structures.rs`.
The positions are computed in `i64` and cast to `usize`; a sum that overflows panics in a build with
overflow checks and wraps in one without, and a slice panics outside of its items.
-/

namespace VedDb

open Comparator

/-! ## Machine integers -/

/-- A sum of two `i64`. -/
def addI64 (overflowChecks : Bool) (a b : Int) : Option Int :=
  if -2 ^ 63 ≤ a + b ∧ a + b < 2 ^ 63 then some (a + b)
  else if overflowChecks then none
  else some ((a + b).bmod (2 ^ 64))

/-- `as i64`, of a `usize`. -/
def lenI64 (n : Nat) : Int := (n : Int).bmod (2 ^ 64)

/-- `as usize`, of an `i64`. -/
def asUsize (i : Int) : Nat := (i % 2 ^ 64).toNat

/-- `items[start..stop]`, which panics outside of the items. -/
def sliceOf {α : Type} (items : List α) (start stop : Nat) : Option (List α) :=
  if start ≤ stop ∧ stop ≤ items.length then some ((items.take stop).drop start) else none

/-! ## Ranges -/

/-- `start_idx` of `lrange` and `zrange`. -/
def startIdx (overflowChecks : Bool) (len start : Int) : Option Nat :=
  if start < 0 then (addI64 overflowChecks len start).map fun sum => asUsize (max sum 0)
  else some (asUsize (min start len))

def stopIdx (overflowChecks : Bool) (len stop : Int) : Option Nat :=
  if stop < 0 then
    ((addI64 overflowChecks len stop).bind fun sum => addI64 overflowChecks sum 1).map
      fun sum => asUsize (max sum 0)
  else (addI64 overflowChecks stop 1).map fun sum => asUsize (min sum len)

/-- The items from `start_idx` to `stop_idx`; nothing where a computation panics. -/
def rangeOf {α : Type} (overflowChecks : Bool) (items : List α) (start stop : Int64) :
    Option (List α) :=
  match startIdx overflowChecks (lenI64 items.length) start.toInt,
      stopIdx overflowChecks (lenI64 items.length) stop.toInt with
  | some first, some last => sliceOf items first last
  | _, _ => none

/-- `CacheList`.  A `VecDeque` has at most `isize::MAX` items. -/
structure CacheList where
  items : List Value
  bounded : items.length < 2 ^ 63

namespace CacheList

/-- `lindex`; nothing where it panics. -/
def lindex (overflowChecks : Bool) (list : CacheList) (index : Int64) : Option (Option Value) :=
  let idx :=
    if index.toInt < 0 then
      (addI64 overflowChecks (lenI64 list.items.length) index.toInt).map asUsize
    else some (asUsize index.toInt)
  idx.map fun idx => list.items[idx]?

/-- `lrange`; nothing where it panics. -/
def lrange (overflowChecks : Bool) (list : CacheList) (start stop : Int64) : Option (List Value) :=
  rangeOf overflowChecks list.items start stop

end CacheList

/-- `CacheSortedSet`, with the score of each member. -/
structure CacheSortedSet where
  items : Std.ExtTreeMap String F64
  bounded : items.toList.length < 2 ^ 63

namespace CacheSortedSet

/-- The comparator of `zrange`: scores that do not compare are equal. -/
def compareScores (a b : String × F64) : Ordering := (a.2.partialCmp b.2).getD .eq

/-- `zrange`; nothing where it panics. -/
def zrange (sortBy : SortBy (String × F64)) (overflowChecks : Bool) (set : CacheSortedSet)
    (start stop : Int64) : Option (List (String × F64)) :=
  (sortBy.sort compareScores set.items.toList).bind fun items =>
    rangeOf overflowChecks items start stop

end CacheSortedSet

/-! ## Positions -/

/-- A position, counted from the end where it is negative. -/
def normalised (len : Nat) (i : Int64) : Int := if i.toInt < 0 then len + i.toInt else i.toInt

/-- The elements whose positions lie between two positions, both included. -/
def elementsBetween {α : Type} (items : List α) (first last : Int) : List α :=
  (items.zipIdx.filter fun item => first ≤ (item.2 : Int) ∧ (item.2 : Int) ≤ last).map Prod.fst

def elementAt {α : Type} (items : List α) (position : Int) : Option α :=
  if 0 ≤ position then items[position.toNat]? else none

/-- The end nearest to a position that lies outside. -/
def clamped (len : Nat) (position : Int) : Int := max 0 (min position len)

/-- The range does not start more than one place after it stops, with the positions outside of the
items at the ends, and it does not stop at `i64::MAX`. -/
def RangeInOrder (len : Nat) (start stop : Int64) : Prop :=
  stop ≠ Int64.maxValue ∧
    clamped len (normalised len start) ≤ clamped len (normalised len stop + 1)

section

variable {α : Type}

theorem filter_zipIdx (items : List α) (first last : Int) (offset : Nat) :
    ((items.zipIdx offset).filter fun item =>
        first ≤ (item.2 : Int) ∧ (item.2 : Int) ≤ last).map Prod.fst =
      (items.take (last + 1 - offset).toNat).drop (first - offset).toNat := by
  induction items generalizing offset with
  | nil => simp
  | cons item items ih =>
    have hnext := ih (offset + 1)
    rw [List.zipIdx_cons]
    by_cases hlast : (offset : Int) ≤ last
    · have htake : (last + 1 - offset).toNat = (last + 1 - (offset + 1 : Nat)).toNat + 1 := by
        omega
      rw [htake, List.take_succ_cons]
      by_cases hfirst : first ≤ (offset : Int)
      · have hdrop : (first - offset).toNat = 0 := by omega
        have hdrop' : (first - (offset + 1 : Nat)).toNat = 0 := by omega
        rw [hdrop'] at hnext
        rw [hdrop, List.filter_cons_of_pos (by simpa using ⟨hfirst, hlast⟩), List.map_cons, hnext]
        rfl
      · have hdrop : (first - offset).toNat = (first - (offset + 1 : Nat)).toNat + 1 := by omega
        rw [hdrop, List.drop_succ_cons, ← hnext, List.filter_cons_of_neg (by simp [hfirst])]
    · have htake : (last + 1 - offset).toNat = 0 := by omega
      have htake' : (last + 1 - (offset + 1 : Nat)).toNat = 0 := by omega
      rw [htake', List.take_zero, List.drop_nil] at hnext
      rw [htake, List.take_zero, List.drop_nil, List.filter_cons_of_neg (by simp [hlast]), hnext]

/-- The elements between two positions are a slice. -/
theorem elementsBetween_eq (items : List α) (first last : Int) :
    elementsBetween items first last =
      (items.take (clamped items.length (last + 1)).toNat).drop
        (clamped items.length first).toNat := by
  have hall := filter_zipIdx items first last 0
  rw [elementsBetween, hall]
  have htake : items.take (last + 1 - (0 : Nat)).toNat =
      items.take (clamped items.length (last + 1)).toNat := by
    rw [List.take_eq_take_iff]
    simp only [clamped]
    omega
  rw [htake]
  by_cases hfirst : first ≤ items.length
  · have hsame : (first - (0 : Nat)).toNat = (clamped items.length first).toNat := by
      rw [clamped]
      omega
    rw [hsame]
  · have hshort (n : Nat) : (items.take n).length ≤ items.length := by
      rw [List.length_take]
      omega
    rw [List.drop_eq_nil_of_le ((hshort _).trans (by omega)),
      List.drop_eq_nil_of_le ((hshort _).trans (by rw [clamped]; omega))]

end

/-! ## What is computed -/

section

variable {overflowChecks : Bool} {len : Nat} (hlen : len < 2 ^ 63)

include hlen

theorem lenI64_eq : lenI64 len = len := by
  unfold lenI64
  apply Int.bmod_eq_of_le_mul_two
  · omega
  · omega

theorem startIdx_eq (start : Int64) :
    startIdx overflowChecks (lenI64 len) start.toInt =
      some (clamped len (normalised len start)).toNat := by
  have hlow := start.le_toInt
  have hhigh := start.toInt_lt
  rw [startIdx, lenI64_eq hlen, normalised, clamped]
  split
  next hneg =>
    rw [addI64, if_pos (by omega), Option.map_some, asUsize]
    congr 2
    omega
  next hpos =>
    rw [asUsize]
    congr 2
    omega

theorem stopIdx_eq {stop : Int64} (h : stop ≠ Int64.maxValue) :
    stopIdx overflowChecks (lenI64 len) stop.toInt =
      some (clamped len (normalised len stop + 1)).toNat := by
  have hlow := stop.le_toInt
  have hhigh := stop.toInt_lt
  have hne : stop.toInt ≠ 2 ^ 63 - 1 := fun heq => h (Int64.toInt_inj.mp heq)
  rw [stopIdx, lenI64_eq hlen, normalised, clamped]
  split
  next hneg =>
    rw [addI64, if_pos (by omega), Option.bind_some, addI64, if_pos (by omega), Option.map_some,
      asUsize]
    congr 2
    omega
  next hpos =>
    rw [addI64, if_pos (by omega), Option.map_some, asUsize]
    congr 2
    omega

end

/-- Where the stop is `i64::MAX`, one more overflows: the sum panics, or the slice does. -/
theorem rangeOf_maxValue {α : Type} {overflowChecks : Bool} {items : List α}
    (hlen : items.length < 2 ^ 63) (start : Int64) :
    rangeOf overflowChecks items start Int64.maxValue = none := by
  rw [rangeOf, startIdx_eq hlen, stopIdx, if_neg (by decide), addI64, if_neg (by decide)]
  cases overflowChecks with
  | true => rfl
  | false =>
    rw [if_neg Bool.false_ne_true, Option.map_some, lenI64_eq hlen]
    have hwrapped : (Int64.maxValue.toInt + 1).bmod (2 ^ 64) = -2 ^ 63 := by decide
    have hidx : asUsize (min (-2 ^ 63) (items.length : Int)) = 2 ^ 63 := by
      rw [Int.min_eq_left (by omega)]
      rfl
    rw [hwrapped, hidx]
    exact if_neg fun h => by omega

/-- A range is what lies between its positions exactly when they are in order; otherwise it
panics. -/
theorem rangeOf_eq_some_iff {α : Type} {overflowChecks : Bool} {items range : List α}
    (hlen : items.length < 2 ^ 63) {start stop : Int64} :
    rangeOf overflowChecks items start stop = some range ↔
      RangeInOrder items.length start stop ∧
        range = elementsBetween items (normalised items.length start)
          (normalised items.length stop) := by
  by_cases hmax : stop = Int64.maxValue
  · rw [hmax, rangeOf_maxValue hlen]
    exact iff_of_false (by simp) fun h => h.1.1 rfl
  · rw [rangeOf, startIdx_eq hlen, stopIdx_eq hlen hmax, elementsBetween_eq, RangeInOrder]
    simp only [sliceOf]
    have hstop : (clamped items.length (normalised items.length stop + 1)).toNat ≤
        items.length := by
      rw [clamped]
      omega
    have horder : (clamped items.length (normalised items.length start)).toNat ≤
        (clamped items.length (normalised items.length stop + 1)).toNat ↔
        clamped items.length (normalised items.length start) ≤
          clamped items.length (normalised items.length stop + 1) := by
      rw [clamped, clamped]
      omega
    rw [← horder]
    split
    next h => simp [hmax, h.1, eq_comm]
    next h => exact iff_of_false (by simp) fun hall => h ⟨hall.1.2, hstop⟩

/-! ## Ranges of lists -/

namespace CacheList

/-- `lindex` finds the element at the position, and never panics. -/
theorem lindex_eq (overflowChecks : Bool) (list : CacheList) (index : Int64) :
    list.lindex overflowChecks index =
      some (elementAt list.items (normalised list.items.length index)) := by
  have hlen := list.bounded
  have hlow := index.le_toInt
  have hhigh := index.toInt_lt
  rw [lindex, lenI64_eq hlen, normalised]
  split
  next hneg =>
    rw [addI64, if_pos (by omega), Option.map_some, Option.map_some, elementAt, asUsize]
    split
    next hpos =>
      congr 3
      omega
    next hbefore =>
      -- A negative position is cast to one past all items.
      rw [List.getElem?_eq_none (by omega)]
  next hpos =>
    rw [Option.map_some, elementAt, if_pos (by omega), asUsize]
    congr 3
    omega

end CacheList

/-! ## Ranges of sorted sets -/

namespace CacheSortedSet

variable {set : CacheSortedSet}

/-- In the order of the scores, and of the members where these are equal. -/
def RankedBefore (a b : String × F64) : Prop :=
  a.2.partialCmp b.2 = some .lt ∨ (a.2.partialCmp b.2 = some .eq ∧ compare a.1 b.1 = .lt)

/-- The range is what lies between the positions in the order of the ranks. -/
def IsRange (set : CacheSortedSet) (start stop : Int64)
    (range : Option (List (String × F64))) : Prop :=
  ∃ ranked : List (String × F64), ranked.Perm set.items.toList ∧ ranked.Pairwise RankedBefore ∧
    range = some (elementsBetween ranked (normalised set.items.toList.length start)
      (normalised set.items.toList.length stop))

/-- No score is a NaN, beside which no other has a place. -/
def Scored (set : CacheSortedSet) : Prop :=
  (∀ entry ∈ set.items.toList, entry.2.isNaN = false) ∨ set.items.toList.length ≤ 1

theorem numbers_of_partialCmp {a b : F64} {o : Ordering} (h : a.partialCmp b = some o) :
    a.isNaN = false ∧ b.isNaN = false := by
  rw [F64.partialCmp] at h
  split at h
  · cases h
  next hnot => simpa using hnot

theorem RankedBefore.numbers {a b : String × F64} (h : RankedBefore a b) :
    a.2.isNaN = false ∧ b.2.isNaN = false := by
  rcases h with h | h
  · exact numbers_of_partialCmp h
  · exact numbers_of_partialCmp h.1

theorem compareScores_of_numbers {a b : String × F64} (ha : a.2.isNaN = false)
    (hb : b.2.isNaN = false) : compareScores a b = compare a.2.rank b.2.rank := by
  rw [compareScores, F64.partialCmp_of_number ha hb, Option.getD_some]

theorem compareScores_totalPreorderOn {entries : List (String × F64)}
    (h : ∀ entry ∈ entries, entry.2.isNaN = false) :
    TotalPreorderOn compareScores (· ∈ entries) where
  refl ha := by
    rw [compareScores_of_numbers (h _ ha) (h _ ha)]
    exact Std.ReflCmp.compare_self
  swap ha hb := by
    rw [compareScores_of_numbers (h _ ha) (h _ hb), compareScores_of_numbers (h _ hb) (h _ ha)]
    exact Std.OrientedCmp.eq_swap
  trans ha hb hc := by
    rw [compareScores_of_numbers (h _ ha) (h _ hb), compareScores_of_numbers (h _ hb) (h _ hc),
      compareScores_of_numbers (h _ ha) (h _ hc)]
    simp only [← Ordering.isLE_iff_ne_gt]
    exact Std.TransCmp.isLE_trans

theorem toList_sorted (set : CacheSortedSet) :
    set.items.toList.Pairwise fun a b => compare a.1 b.1 = .lt :=
  Std.ExtTreeMap.ordered_keys_toList

theorem Scored.totalPreorderOn (h : set.Scored) :
    TotalPreorderOn compareScores (· ∈ set.items.toList) := by
  rcases h with hnumbers | hone
  · exact compareScores_totalPreorderOn hnumbers
  · have hself (a : String × F64) : compareScores a a = .eq := by
      cases hnan : a.2.isNaN with
      | false =>
        rw [compareScores_of_numbers hnan hnan]
        exact Std.ReflCmp.compare_self
      | true => rw [compareScores, F64.partialCmp, hnan]; rfl
    have hsame {a b : String × F64} (ha : a ∈ set.items.toList) (hb : b ∈ set.items.toList) :
        compareScores a b = .eq := by
      obtain ⟨i, hi, rfl⟩ := List.getElem_of_mem ha
      obtain ⟨j, hj, rfl⟩ := List.getElem_of_mem hb
      obtain rfl : i = j := by omega
      exact hself _
    refine ⟨fun ha => hsame ha ha, fun ha hb => ?_, fun ha _ hc _ _ => ?_⟩
    · rw [hsame ha hb, hsame hb ha]
      rfl
    · rw [hsame ha hc]
      decide

theorem sorted_ranked (hscored : set.Scored) (sortBy : SortBy (String × F64)) :
    ∃ ranked, sortBy.sort compareScores set.items.toList = some ranked ∧
      ranked.Perm set.items.toList ∧ ranked.Pairwise RankedBefore := by
  obtain ⟨ranked, hsort, hstable⟩ := sortBy.stable hscored.totalPreorderOn
  refine ⟨ranked, hsort, hstable.perm, ?_⟩
  rcases hscored with hnumbers | hone
  · have hpre := compareScores_totalPreorderOn hnumbers
    have hpairs := hstable.pairwise (fun a ha => hpre.refl ha) (toList_sorted set)
    refine hpairs.imp_of_mem fun {a b} ha hb h => ?_
    have hcmp := F64.partialCmp_of_number (hnumbers a (hstable.perm.mem_iff.mp ha))
      (hnumbers b (hstable.perm.mem_iff.mp hb))
    rw [RankedBefore, hcmp]
    rw [compareScores, hcmp, Option.getD_some] at h
    simpa using h
  · rw [← hstable.perm.length_eq] at hone
    cases ranked with
    | nil => exact .nil
    | cons first rest =>
      have hrest : rest = [] := by simpa using hone
      rw [hrest]
      exact List.pairwise_singleton _ _

theorem scored_of_ranked {ranked : List (String × F64)} (hperm : ranked.Perm set.items.toList)
    (h : ranked.Pairwise RankedBefore) : set.Scored := by
  match ranked with
  | [] => exact .inr (by rw [← hperm.length_eq]; exact Nat.zero_le 1)
  | [entry] => exact .inr (by rw [← hperm.length_eq]; exact Nat.le_refl 1)
  | first :: second :: rest =>
    obtain ⟨hfirst, hrest⟩ := List.pairwise_cons.mp h
    refine .inl fun entry hentry => ?_
    rcases List.mem_cons.mp (hperm.mem_iff.mpr hentry) with rfl | hmem
    · exact (hfirst second List.mem_cons_self).numbers.1
    · exact (hfirst entry hmem).numbers.2

/-- `zrange` returns the members between the positions, by score and then by name, exactly when the
positions are in order and all scores are numbers. -/
theorem zrange_iff (sortBy : SortBy (String × F64)) (overflowChecks : Bool) (set : CacheSortedSet)
    (start stop : Int64) :
    set.IsRange start stop (set.zrange sortBy overflowChecks start stop) ↔
      RangeInOrder set.items.toList.length start stop ∧ set.Scored := by
  rw [zrange]
  constructor
  · rintro ⟨ranked, hperm, hranked, hrange⟩
    obtain ⟨items, hsort, hitems⟩ := Option.bind_eq_some_iff.mp hrange
    have hlen := (sortBy.perm hsort).length_eq
    rw [← hlen] at hitems ⊢
    exact ⟨((rangeOf_eq_some_iff (by rw [hlen]; exact set.bounded)).mp hitems).1,
      scored_of_ranked hperm hranked⟩
  · rintro ⟨horder, hscored⟩
    obtain ⟨ranked, hsort, hperm, hranked⟩ := sorted_ranked hscored sortBy
    refine ⟨ranked, hperm, hranked, ?_⟩
    rw [hsort, Option.bind_some]
    rw [← hperm.length_eq] at horder ⊢
    exact (rangeOf_eq_some_iff (by rw [hperm.length_eq]; exact set.bounded)).mpr ⟨horder, rfl⟩

end CacheSortedSet

/-! ## All three -/

/-- `lindex` is right at every position; `lrange` returns the elements between its positions exactly
when these are in order, and `zrange` when besides all scores are numbers. -/
theorem ranges_iff (sortBy : SortBy (String × F64)) (overflowChecks : Bool) (list : CacheList)
    (set : CacheSortedSet) (index start stop : Int64) :
    list.lindex overflowChecks index =
      some (elementAt list.items (normalised list.items.length index)) ∧
    (list.lrange overflowChecks start stop =
        some (elementsBetween list.items (normalised list.items.length start)
          (normalised list.items.length stop)) ↔
      RangeInOrder list.items.length start stop) ∧
    (set.IsRange start stop (set.zrange sortBy overflowChecks start stop) ↔
      RangeInOrder set.items.toList.length start stop ∧ set.Scored) := by
  refine ⟨list.lindex_eq overflowChecks index, ?_, set.zrange_iff sortBy overflowChecks start stop⟩
  rw [CacheList.lrange, rangeOf_eq_some_iff list.bounded]
  exact and_iff_left rfl

/-- The numbers from 0 to 4. -/
def fiveItems : CacheList :=
  { items := [.int32 0, .int32 1, .int32 2, .int32 3, .int32 4], bounded := by decide }

/-- A range that starts after it stops is not empty: it panics, with and without overflow checks. -/
theorem crossing_range_panics : ¬∃ overflowChecks : Bool,
    fiveItems.lrange overflowChecks 3 1 = some (elementsBetween fiveItems.items
      (normalised fiveItems.items.length 3) (normalised fiveItems.items.length 1)) := by
  rintro ⟨overflowChecks, h⟩
  have horder := ((rangeOf_eq_some_iff fiveItems.bounded).mp h).1
  exact absurd horder.2 (by decide)

end VedDb
