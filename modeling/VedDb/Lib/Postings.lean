import Mathlib.Data.List.Nodup
import Mathlib.Logic.Function.Basic
import Mathlib.Tactic.Common

/-!
# Postings

An inverted index: a tree map from keys to lists of identifiers, over any identifiers and any keys
with an order.  `Inverts` says of such a tree that it lists under each key exactly the identifiers
that a partial function sends to that key, each once.
-/

namespace Postings

variable {K Id : Type} {cmp : K → K → Ordering} [Std.TransCmp cmp]

/-- The identifiers under a key. -/
def idsAt (tree : Std.ExtTreeMap K (List Id) cmp) (key : K) : List Id := tree[key]?.getD []

/-- One more identifier under a key. -/
def push (tree : Std.ExtTreeMap K (List Id) cmp) (key : K) (id : Id) :
    Std.ExtTreeMap K (List Id) cmp :=
  tree.insert key (idsAt tree key ++ [id])

/-- One identifier less under a key; a key without identifiers goes. -/
def remove [DecidableEq Id] (tree : Std.ExtTreeMap K (List Id) cmp) (key : K) (id : Id) :
    Std.ExtTreeMap K (List Id) cmp :=
  let ids := (idsAt tree key).erase id
  if ids.isEmpty then tree.erase key else tree.insert key ids

/-- The tree lists under each key exactly the identifiers that have it. -/
structure Inverts (tree : Std.ExtTreeMap K (List Id) cmp) (keyOf : Id → Option K) : Prop where
  mem_iff : ∀ key id, id ∈ idsAt tree key ↔ ∃ own, keyOf id = some own ∧ cmp own key = .eq
  nodup : ∀ key, (idsAt tree key).Nodup
  nonempty : ∀ key : K, tree[key]? ≠ some []

variable {tree : Std.ExtTreeMap K (List Id) cmp} {keyOf : Id → Option K} {key other : K} {id : Id}

/-! ## What the operations do to the lists -/

theorem idsAt_empty (key : K) : idsAt (∅ : Std.ExtTreeMap K (List Id) cmp) key = [] := by
  rw [idsAt, Std.ExtTreeMap.getElem?_empty]
  rfl

theorem idsAt_congr (h : cmp key other = .eq) : idsAt tree key = idsAt tree other := by
  rw [idsAt, idsAt, Std.ExtTreeMap.getElem?_congr h]

theorem idsAt_insert (ids : List Id) :
    idsAt (tree.insert key ids) other = if cmp key other = .eq then ids else idsAt tree other := by
  rw [idsAt, Std.ExtTreeMap.getElem?_insert]
  by_cases h : cmp key other = .eq
  · rw [if_pos h, if_pos h]
    rfl
  · rw [if_neg h, if_neg h]
    rfl

theorem idsAt_push :
    idsAt (push tree key id) other =
      if cmp key other = .eq then idsAt tree other ++ [id] else idsAt tree other := by
  rw [push, idsAt_insert]
  by_cases h : cmp key other = .eq
  · rw [if_pos h, if_pos h, idsAt_congr h]
  · rw [if_neg h, if_neg h]

section

variable [DecidableEq Id]

theorem idsAt_remove :
    idsAt (remove tree key id) other =
      if cmp key other = .eq then (idsAt tree other).erase id else idsAt tree other := by
  unfold remove
  dsimp only
  by_cases hlast : ((idsAt tree key).erase id).isEmpty = true
  · rw [if_pos hlast, idsAt, Std.ExtTreeMap.getElem?_erase]
    by_cases h : cmp key other = .eq
    · rw [if_pos h, if_pos h, ← idsAt_congr h, List.isEmpty_iff.mp hlast]
      rfl
    · rw [if_neg h, if_neg h]
      rfl
  · rw [if_neg hlast, idsAt_insert]
    by_cases h : cmp key other = .eq
    · rw [if_pos h, if_pos h, idsAt_congr h]
    · rw [if_neg h, if_neg h]

theorem getElem?_remove_ne (hnonempty : ∀ key : K, tree[key]? ≠ some []) :
    (remove tree key id)[other]? ≠ some [] := by
  unfold remove
  dsimp only
  by_cases hlast : ((idsAt tree key).erase id).isEmpty = true
  · rw [if_pos hlast, Std.ExtTreeMap.getElem?_erase]
    by_cases h : cmp key other = .eq
    · rw [if_pos h]
      exact nofun
    · rw [if_neg h]
      exact hnonempty other
  · rw [if_neg hlast, Std.ExtTreeMap.getElem?_insert]
    by_cases h : cmp key other = .eq
    · rw [if_pos h]
      intro hempty
      rw [Option.some.inj hempty] at hlast
      exact hlast rfl
    · rw [if_neg h]
      exact hnonempty other

end

theorem getElem?_eq_iff {tree' : Std.ExtTreeMap K (List Id) cmp}
    (h : ∀ key : K, tree[key]? ≠ some []) (h' : ∀ key : K, tree'[key]? ≠ some []) :
    tree'[key]? = tree[key]? ↔ idsAt tree' key = idsAt tree key := by
  have hkey := h key
  have hkey' := h' key
  rw [idsAt, idsAt]
  refine ⟨fun heq => by rw [heq], fun heq => ?_⟩
  cases hold : tree[key]? with
  | none =>
    cases hnew : tree'[key]? with
    | none => rfl
    | some ids =>
      rw [hold, hnew, Option.getD_some, Option.getD_none] at heq
      exact absurd (heq ▸ hnew) hkey'
  | some ids =>
    cases hnew : tree'[key]? with
    | none =>
      rw [hold, hnew, Option.getD_some, Option.getD_none] at heq
      exact absurd (heq ▸ hold) hkey
    | some ids' =>
      rw [hold, hnew, Option.getD_some, Option.getD_some] at heq
      rw [heq]

theorem getElem?_insert_ne {ids : List Id} (hids : ids ≠ [])
    (hnonempty : ∀ key : K, tree[key]? ≠ some []) : (tree.insert key ids)[other]? ≠ some [] := by
  rw [Std.ExtTreeMap.getElem?_insert]
  by_cases h : cmp key other = .eq
  · rw [if_pos h]
    exact fun hempty => hids (Option.some.inj hempty)
  · rw [if_neg h]
    exact hnonempty other

/-! ## Inverses -/

namespace Inverts

theorem empty : Inverts (∅ : Std.ExtTreeMap K (List Id) cmp) (fun _ => none) where
  mem_iff key id := by
    rw [idsAt_empty]
    simp
  nodup key := by
    rw [idsAt_empty]
    exact List.nodup_nil
  nonempty key := by
    rw [Std.ExtTreeMap.getElem?_empty]
    exact nofun

variable (h : Inverts tree keyOf)

include h

theorem notMem (hid : keyOf id = none) : id ∉ idsAt tree key := by
  intro hmem
  obtain ⟨own, hown, -⟩ := (h.mem_iff key id).mp hmem
  rw [hid] at hown
  cases hown

theorem congr {keyOf' : Id → Option K} (hsame : ∀ id, keyOf' id = keyOf id) :
    Inverts tree keyOf' := by
  have heq : keyOf' = keyOf := funext hsame
  rw [heq]
  exact h

-- Writing the list a key already has changes nothing.
theorem insert_same (hids : idsAt tree key ≠ []) :
    Inverts (tree.insert key (idsAt tree key)) keyOf := by
  have hsame (other : K) : idsAt (tree.insert key (idsAt tree key)) other = idsAt tree other := by
    rw [idsAt_insert]
    by_cases hkey : cmp key other = .eq
    · rw [if_pos hkey, idsAt_congr hkey]
    · rw [if_neg hkey]
  refine ⟨?_, ?_, fun _ => getElem?_insert_ne hids h.nonempty⟩
  · intro other id
    rw [hsame]
    exact h.mem_iff other id
  · intro other
    rw [hsame]
    exact h.nodup other

variable [DecidableEq Id]

/-- An identifier without a key gets one. -/
theorem push (hid : keyOf id = none) :
    Inverts (push tree key id) (Function.update keyOf id (some key)) := by
  refine ⟨?_, ?_, fun _ => getElem?_insert_ne (by simp) h.nonempty⟩
  · intro other id'
    rw [idsAt_push]
    by_cases hown : id' = id
    · subst hown
      have hnot : id' ∉ idsAt tree other := h.notMem hid
      rw [Function.update_self]
      by_cases hkey : cmp key other = .eq
      · simp [hkey]
      · simp [hkey, hnot]
    · rw [Function.update_of_ne hown, ← h.mem_iff]
      by_cases hkey : cmp key other = .eq
      · simp [hkey, hown]
      · simp [hkey]
  · intro other
    rw [idsAt_push]
    by_cases hkey : cmp key other = .eq
    · rw [if_pos hkey, ← List.concat_eq_append]
      exact (List.nodup_concat _ id).mpr ⟨h.notMem hid, h.nodup other⟩
    · rw [if_neg hkey]
      exact h.nodup other

/-- An identifier loses its key. -/
theorem remove (hid : keyOf id = some key) :
    Inverts (remove tree key id) (Function.update keyOf id none) := by
  refine ⟨?_, ?_, fun _ => getElem?_remove_ne h.nonempty⟩
  · intro other id'
    rw [idsAt_remove]
    by_cases hown : id' = id
    · subst hown
      rw [Function.update_self]
      by_cases hkey : cmp key other = .eq
      · simp [hkey, (h.nodup other).mem_erase_iff]
      · have hnot : id' ∉ idsAt tree other := by
          rw [h.mem_iff, hid]
          simp [hkey]
        simp [hkey, hnot]
    · rw [Function.update_of_ne hown, ← h.mem_iff]
      by_cases hkey : cmp key other = .eq
      · rw [if_pos hkey]
        exact List.mem_erase_of_ne hown
      · rw [if_neg hkey]
  · intro other
    rw [idsAt_remove]
    by_cases hkey : cmp key other = .eq
    · rw [if_pos hkey]
      exact (h.nodup other).erase id
    · rw [if_neg hkey]
      exact h.nodup other

end Inverts

/-! ## The identifiers of some keys -/

/-- The identifiers under the keys that meet a condition, in the order of the keys. -/
def select (tree : Std.ExtTreeMap K (List Id) cmp) (p : K → Bool) : List Id :=
  (tree.toList.filter fun entry => p entry.1).flatMap Prod.snd

end Postings
