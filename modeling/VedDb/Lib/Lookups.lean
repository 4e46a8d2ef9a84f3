import Mathlib.Data.List.Nodup
import Mathlib.Logic.Function.Basic
import Mathlib.Tactic.Common

/-!
# Lookups

What a map with a lawful order holds after an insertion and after an erasure, and what a partial
function has after it is changed at one place.
-/

namespace VedDb

section

variable {K V : Type} [Ord K] [Std.TransOrd K] [Std.LawfulEqOrd K] [DecidableEq K]

theorem lookup_insert (map : Std.ExtTreeMap K V) (key other : K) (value : V) :
    (map.insert key value)[other]? = if key = other then some value else map[other]? := by
  rw [Std.ExtTreeMap.getElem?_insert]
  simp only [Std.LawfulEqOrd.compare_eq_iff_eq]

theorem lookup_erase (map : Std.ExtTreeMap K V) (key other : K) :
    (map.erase key)[other]? = if key = other then none else map[other]? := by
  rw [Std.ExtTreeMap.getElem?_erase]
  simp only [Std.LawfulEqOrd.compare_eq_iff_eq]

omit [Std.LawfulEqOrd K] [DecidableEq K] in
theorem contains_iff_exists {map : Std.ExtTreeMap K V} {key : K} :
    map.contains key = true ↔ ∃ value, map[key]? = some value := by
  rw [Std.ExtTreeMap.contains_eq_isSome_getElem?, Option.isSome_iff_exists]

/-- An insertion where something is keeps the set of keys. -/
theorem contains_insert_of_some {map : Std.ExtTreeMap K V} {key : K} {old value : V}
    (h : map[key]? = some old) (other : K) :
    (map.insert key value).contains other = map.contains other := by
  rw [Std.ExtTreeMap.contains_eq_isSome_getElem?, Std.ExtTreeMap.contains_eq_isSome_getElem?,
    lookup_insert]
  split
  next hother =>
    rw [← hother, h]
    rfl
  next => rfl

/-- After an insertion of one entry into both, two maps agree where they agreed elsewhere before. -/
theorem insert_eq_insert_iff {map map' : Std.ExtTreeMap K V} {key : K} {value : V} :
    map.insert key value = map'.insert key value ↔
      ∀ other, other ≠ key → map[other]? = map'[other]? := by
  constructor
  · intro h other hother
    have hlookup : (map.insert key value)[other]? = (map'.insert key value)[other]? := by rw [h]
    rw [lookup_insert, lookup_insert, if_neg hother.symm, if_neg hother.symm] at hlookup
    exact hlookup
  · intro h
    apply Std.ExtTreeMap.ext_getElem?
    intro other
    rw [lookup_insert, lookup_insert]
    split
    next => rfl
    next hother => exact h other (Ne.symm hother)

omit [Std.LawfulEqOrd K] [DecidableEq K] in
theorem values_eq_map_toList (map : Std.ExtTreeMap K V) : map.values = map.toList.map Prod.snd := by
  obtain ⟨inner⟩ := map
  induction inner using Std.ExtDTreeMap.inductionOn with
  | mk tree =>
    have hvalues := Std.DTreeMap.Internal.Impl.values_eq_map_snd (t := tree.inner)
    have hlist := Std.DTreeMap.Internal.Impl.Const.toList_eq_toListModel_map (t := tree.inner)
    refine hvalues.trans (Eq.trans ?_ (congrArg (List.map Prod.snd) hlist.symm))
    rw [List.map_map]
    rfl

/-- A map is what its entries make when they are inserted one after another. -/
theorem insertMany_toList (map : Std.ExtTreeMap K V) :
    (∅ : Std.ExtTreeMap K V).insertMany map.toList = map := by
  apply Std.ExtTreeMap.ext_getElem?
  intro key
  cases hown : map[key]? with
  | some value =>
    have hmem := Std.ExtTreeMap.mem_toList_iff_getElem?_eq_some.mpr hown
    exact Std.ExtTreeMap.getElem?_insertMany_list_of_mem Std.ReflOrd.compare_self
      Std.ExtTreeMap.distinct_keys_toList hmem
  | none =>
    rw [Std.ExtTreeMap.getElem?_insertMany_list_of_contains_eq_false]
    · exact Std.ExtTreeMap.getElem?_empty
    · simp only [List.contains_eq_mem, decide_eq_false_iff_not, List.mem_map, not_exists, not_and]
      rintro ⟨own, value⟩ hmem rfl
      rw [Std.ExtTreeMap.mem_toList_iff_getElem?_eq_some, hown] at hmem
      cases hmem

theorem toList_ofList_perm {entries : List (K × V)} (h : (entries.map Prod.fst).Nodup) :
    (Std.ExtTreeMap.ofList entries compare).toList.Perm entries := by
  have hdistinct : entries.Pairwise fun a b => ¬compare a.1 b.1 = .eq := by
    rw [List.Nodup, List.pairwise_map] at h
    exact h.imp fun hne heq => hne (Std.LawfulEqOrd.eq_of_compare heq)
  have hlookup {key : K} {value : V} (hmem : (key, value) ∈ entries) :
      (Std.ExtTreeMap.ofList entries compare)[key]? = some value :=
    Std.ExtTreeMap.getElem?_ofList_of_mem Std.ReflOrd.compare_self hdistinct hmem
  have hnodup : (Std.ExtTreeMap.ofList entries compare).toList.Nodup := by
    refine List.Nodup.of_map Prod.fst ?_
    rw [Std.ExtTreeMap.map_fst_toList_eq_keys]
    exact Std.ExtTreeMap.nodup_keys
  rw [List.perm_ext_iff_of_nodup hnodup (List.Nodup.of_map Prod.fst h)]
  rintro ⟨key, value⟩
  rw [Std.ExtTreeMap.mem_toList_iff_getElem?_eq_some]
  constructor
  · intro hown
    have hkey : key ∈ entries.map Prod.fst := by
      by_contra hnot
      have hfalse : (entries.map Prod.fst).contains key = false := by
        rw [List.contains_eq_mem, decide_eq_false hnot]
      rw [Std.ExtTreeMap.getElem?_ofList_of_contains_eq_false hfalse] at hown
      cases hown
    obtain ⟨⟨own, value'⟩, hmem, rfl⟩ := List.mem_map.mp hkey
    rw [hlookup hmem] at hown
    exact Option.some.inj hown ▸ hmem
  · exact hlookup

/-- Entries of a map in any order make it up again. -/
theorem ofList_of_perm {map : Std.ExtTreeMap K V} {entries : List (K × V)}
    (h : entries.Perm map.toList) : Std.ExtTreeMap.ofList entries compare = map := by
  have hnodup : (entries.map Prod.fst).Nodup := by
    rw [(h.map Prod.fst).nodup_iff, Std.ExtTreeMap.map_fst_toList_eq_keys]
    exact Std.ExtTreeMap.nodup_keys
  apply Std.ExtTreeMap.ext_getElem?
  intro key
  apply Option.ext
  intro value
  rw [← Std.ExtTreeMap.mem_toList_iff_getElem?_eq_some,
    ← Std.ExtTreeMap.mem_toList_iff_getElem?_eq_some, (toList_ofList_perm hnodup).mem_iff,
    h.mem_iff]

end

theorem update_eq_some {α β : Type} [DecidableEq α] {f : α → Option β} {a other : α}
    {x : Option β} {y : β} : Function.update f a x other = some y ↔
      (other = a ∧ x = some y) ∨ (other ≠ a ∧ f other = some y) := by
  rw [Function.update_apply]
  split
  next heq => simp [heq]
  next hne => simp [hne]

end VedDb
