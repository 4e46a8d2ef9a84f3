import VedDb.Lib.Postings
import VedDb.Lib.StableSort

/-!
# Postings in their order

Items that came one after another, each with a key and an identifier, next to the tree that lists
the identifiers by the keys.  `ListsInOrder` says that each key has the identifiers of its items, as
they came.  What a selection of keys finds is then a stable sort of the items by their keys.
-/

namespace Postings

open VedDb (Comparator.StableSort Comparator.TotalPreorderOn)

variable {α K Id : Type} {cmp : K → K → Ordering} (key : α → K) (value : α → Id)

def itemsOf (cmp : K → K → Ordering) (items : List α) (k : K) : List α :=
  items.filter fun a => cmp (key a) k = .eq

structure ListsInOrder [Std.TransCmp cmp] (tree : Std.ExtTreeMap K (List Id) cmp)
    (items : List α) : Prop where
  idsAt : ∀ k, idsAt tree k = (itemsOf key cmp items k).map value
  nonempty : ∀ k : K, tree[k]? ≠ some []

variable [Std.TransCmp cmp] {key value} {tree : Std.ExtTreeMap K (List Id) cmp} {items : List α}

theorem itemsOf_congr {k k' : K} (h : cmp k k' = .eq) :
    itemsOf key cmp items k = itemsOf key cmp items k' := by
  apply List.filter_congr
  intro a _
  have hiff : cmp (key a) k = .eq ↔ cmp (key a) k' = .eq :=
    ⟨fun ha => Std.TransCmp.eq_trans ha h,
      fun ha => Std.TransCmp.eq_trans ha (Std.OrientedCmp.eq_symm h)⟩
  simp only [hiff]

/-! ## What the operations do to the items -/

namespace ListsInOrder

theorem empty : ListsInOrder key value (∅ : Std.ExtTreeMap K (List Id) cmp) ([] : List α) where
  idsAt k := idsAt_empty k
  nonempty k := by
    rw [Std.ExtTreeMap.getElem?_empty]
    simp

variable (h : ListsInOrder key value tree items)

include h

/-- One more item comes last. -/
theorem push (a : α) :
    ListsInOrder key value (Postings.push tree (key a) (value a)) (items ++ [a]) where
  idsAt k := by
    rw [idsAt_push, h.idsAt, itemsOf, itemsOf, List.filter_append, List.map_append]
    by_cases hk : cmp (key a) k = .eq
    · rw [if_pos hk, List.filter_cons_of_pos (by simpa using hk)]
      rfl
    · rw [if_neg hk, List.filter_cons_of_neg (by simpa using hk)]
      exact (List.append_nil _).symm
  nonempty _ := getElem?_insert_ne (by simp) h.nonempty

theorem replace (a : α) :
    ListsInOrder key value (tree.insert (key a) [value a])
      ((items.filter fun b => cmp (key b) (key a) ≠ .eq) ++ [a]) where
  idsAt k := by
    rw [idsAt_insert, itemsOf, List.filter_append, List.filter_filter, List.map_append]
    by_cases hk : cmp (key a) k = .eq
    · rw [if_pos hk, List.filter_cons_of_pos (by simpa using hk)]
      have hnone : (items.filter fun b =>
          decide (cmp (key b) k = .eq) && decide (cmp (key b) (key a) ≠ .eq)) = [] := by
        rw [List.filter_eq_nil_iff]
        intro b _ hb
        rw [Bool.and_eq_true, decide_eq_true_iff, decide_eq_true_iff] at hb
        exact hb.2 (Std.TransCmp.eq_trans hb.1 (Std.OrientedCmp.eq_symm hk))
      rw [hnone]
      rfl
    · rw [if_neg hk, List.filter_cons_of_neg (by simpa using hk), h.idsAt, itemsOf]
      have hsame : (items.filter fun b =>
          decide (cmp (key b) k = .eq) && decide (cmp (key b) (key a) ≠ .eq)) =
          items.filter fun b => decide (cmp (key b) k = .eq) := by
        apply List.filter_congr
        intro b _
        by_cases hb : cmp (key b) k = .eq
        · have hne : cmp (key b) (key a) ≠ .eq := fun heq =>
            hk (Std.TransCmp.eq_trans (Std.OrientedCmp.eq_symm heq) hb)
          simp [hb, hne]
        · simp [hb]
      rw [hsame]
      exact (List.append_nil _).symm
  nonempty _ := getElem?_insert_ne (by simp) h.nonempty

omit [Std.TransCmp cmp] h in
theorem map_filter_eraseP [DecidableEq Id] (items : List α) (p : α → Bool) (id : Id) :
    ((items.eraseP fun b => p b && decide (value b = id)).filter p).map value =
      ((items.filter p).map value).erase id := by
  induction items with
  | nil => rfl
  | cons b items ih =>
    by_cases hp : p b = true
    · by_cases hid : value b = id
      · rw [List.eraseP_cons_of_pos (by simp [hp, hid]), List.filter_cons_of_pos hp,
          List.map_cons, hid, List.erase_cons_head]
      · rw [List.eraseP_cons_of_neg (by simp [hid]), List.filter_cons_of_pos hp,
          List.filter_cons_of_pos hp, List.map_cons, List.map_cons, ih,
          List.erase_cons_tail (by simpa using hid)]
    · rw [List.eraseP_cons_of_neg (by simp [hp]), List.filter_cons_of_neg hp,
        List.filter_cons_of_neg hp, ih]

omit [Std.TransCmp cmp] h in
theorem filter_eraseP {items : List α} {p q : α → Bool} (hq : ∀ b, q b = true → p b = false) :
    (items.eraseP q).filter p = items.filter p := by
  induction items with
  | nil => rfl
  | cons b items ih =>
    by_cases hb : q b = true
    · rw [List.eraseP_cons_of_pos hb, List.filter_cons_of_neg (by simp [hq b hb])]
    · rw [List.eraseP_cons_of_neg hb, List.filter_cons, List.filter_cons, ih]

theorem remove [DecidableEq Id] (k : K) (id : Id) :
    ListsInOrder key value (Postings.remove tree k id)
      (items.eraseP fun b => decide (cmp (key b) k = .eq) && decide (value b = id)) where
  idsAt other := by
    rw [idsAt_remove, h.idsAt]
    by_cases hk : cmp k other = .eq
    · rw [if_pos hk, ← itemsOf_congr hk, ← itemsOf_congr hk, itemsOf, itemsOf, map_filter_eraseP]
    · rw [if_neg hk, itemsOf, itemsOf]
      -- the item that goes has another key
      rw [filter_eraseP]
      intro b hb
      rw [Bool.and_eq_true, decide_eq_true_iff] at hb
      apply decide_eq_false
      exact fun heq => hk (Std.TransCmp.eq_trans (Std.OrientedCmp.eq_symm hb.1) heq)
  nonempty _ := getElem?_remove_ne h.nonempty

end ListsInOrder

/-! ## Selections -/

omit [Std.TransCmp cmp] in
/-- Lists with the same elements beside each element, in whatever order, are the same up to that. -/
theorem perm_of_ties {l₁ l₂ : List α} (tie : α → α → Bool) (hrefl : ∀ a, tie a a = true)
    (hties : ∀ c, l₁.filter (tie c) = l₂.filter (tie c)) : l₁.Perm l₂ := by
  classical
  rw [List.perm_iff_count]
  intro a
  rw [← List.count_filter (hrefl a), hties a, List.count_filter (hrefl a)]

theorem flatMap_toList (f : K → List α) {k : K}
    (hother : ∀ k', cmp k' k ≠ .eq → f k' = []) (hown : ∀ k', cmp k' k = .eq → f k' = f k)
    (hnone : tree[k]? = none → f k = []) :
    (tree.toList.flatMap fun entry => f entry.1) = f k := by
  cases hstored : tree[k]? with
  | none =>
    rw [hnone hstored, List.flatMap_eq_nil_iff]
    intro entry _
    by_cases hk : cmp entry.1 k = .eq
    · rw [hown _ hk, hnone hstored]
    · exact hother _ hk
  | some ids =>
    obtain ⟨own, hk, hmem⟩ :=
      Std.ExtTreeMap.getElem?_eq_some_iff_exists_compare_eq_eq_and_mem_toList.mp hstored
    obtain ⟨before, after, hsplit⟩ := List.append_of_mem hmem
    have hordered := Std.ExtTreeMap.ordered_keys_toList (t := tree)
    rw [hsplit, List.pairwise_append, List.pairwise_cons] at hordered
    have hbefore : (before.flatMap fun entry => f entry.1) = [] := by
      rw [List.flatMap_eq_nil_iff]
      intro entry hentry
      apply hother
      intro heq
      have hlt := hordered.2.2 entry hentry _ List.mem_cons_self
      rw [Std.TransCmp.eq_trans heq hk] at hlt
      cases hlt
    have hafter : (after.flatMap fun entry => f entry.1) = [] := by
      rw [List.flatMap_eq_nil_iff]
      intro entry hentry
      apply hother
      intro heq
      have hlt := hordered.2.1.1 entry hentry
      rw [Std.TransCmp.eq_trans (Std.OrientedCmp.eq_symm hk) (Std.OrientedCmp.eq_symm heq)] at hlt
      cases hlt
    rw [hsplit, List.flatMap_append, List.flatMap_cons, hbefore, hafter, List.nil_append,
      List.append_nil]
    exact hown _ (Std.OrientedCmp.eq_symm hk)

/-- The items whose keys are selected, by the order of their keys and, under one key, as they
came. -/
def selected (key : α → K) (tree : Std.ExtTreeMap K (List Id) cmp) (items : List α)
    (p : K → Bool) : List α :=
  tree.toList.flatMap fun entry => if p entry.1 then itemsOf key cmp items entry.1 else []

namespace ListsInOrder

variable (h : ListsInOrder key value tree items) {p : K → Bool}

include h

theorem select_eq : select tree p = (selected key tree items p).map value := by
  have hentry : ∀ entry ∈ tree.toList, entry.2 = (itemsOf key cmp items entry.1).map value := by
    intro entry hentry
    have hstored :=
      (Std.ExtTreeMap.mem_toList_iff_getKey?_eq_some_and_getElem?_eq_some.mp hentry).2
    rw [← h.idsAt, Postings.idsAt, hstored]
    rfl
  rw [select, selected, List.map_flatMap]
  generalize tree.toList = entries at hentry
  induction entries with
  | nil => rfl
  | cons entry entries ih =>
    rw [List.forall_mem_cons] at hentry
    rw [List.flatMap_cons, ← ih hentry.2]
    by_cases hp : p entry.1 = true
    · rw [List.filter_cons_of_pos (p := fun entry : K × List Id => p entry.1) hp,
        List.flatMap_cons, if_pos hp, hentry.1]
    · rw [List.filter_cons_of_neg (p := fun entry : K × List Id => p entry.1) hp, if_neg hp]
      rfl

theorem stableSort_selected (hp : ∀ {a b}, cmp a b = .eq → p a = p b) :
    Comparator.StableSort (fun a b => cmp (key a) (key b)) (items.filter fun a => p (key a))
      (selected key tree items p) := by
  have hties (c : α) :
      ((selected key tree items p).filter fun a => cmp (key c) (key a) = .eq) =
        (items.filter fun a => p (key a)).filter fun a => cmp (key c) (key a) = .eq := by
    have hcomm (k : K) : (decide (cmp (key c) k = .eq)) = decide (cmp k (key c) = .eq) := by
      apply decide_eq_decide.mpr
      exact ⟨Std.OrientedCmp.eq_symm, Std.OrientedCmp.eq_symm⟩
    let f := fun k => (if p k then itemsOf key cmp items k else []).filter fun a =>
      cmp (key c) (key a) = .eq
    have hown (k : K) (hk : cmp k (key c) = .eq) : f k = f (key c) := by
      show List.filter _ _ = List.filter _ _
      rw [hp hk, itemsOf_congr hk]
    have hother (k : K) (hk : cmp k (key c) ≠ .eq) : f k = [] := by
      rw [List.filter_eq_nil_iff]
      intro a ha heq
      split at ha
      · have hak := of_decide_eq_true (List.mem_filter.mp ha).2
        rw [hcomm] at heq
        exact hk (Std.TransCmp.eq_trans (Std.OrientedCmp.eq_symm hak) (of_decide_eq_true heq))
      · cases ha
    have hnone (hstored : tree[key c]? = none) : f (key c) = [] := by
      have hids := h.idsAt (key c)
      rw [Postings.idsAt, hstored, eq_comm] at hids
      have hempty : itemsOf key cmp items (key c) = [] := List.map_eq_nil_iff.mp hids
      show List.filter _ _ = []
      rw [hempty, ite_self]
      rfl
    rw [selected, List.filter_flatMap, flatMap_toList f hother hown hnone, List.filter_filter]
    show List.filter _ _ = _
    by_cases hpc : p (key c) = true
    · rw [if_pos hpc, itemsOf, List.filter_filter]
      apply List.filter_congr
      intro a _
      simp only [hcomm]
      by_cases ha : cmp (key a) (key c) = .eq
      · simp [ha, hp ha, hpc]
      · simp [ha]
    · rw [if_neg hpc, List.filter_nil, eq_comm, List.filter_eq_nil_iff]
      intro a _ ha
      rw [Bool.and_eq_true, hcomm, decide_eq_true_iff] at ha
      exact hpc (hp ha.1 ▸ ha.2)
  refine ⟨?_, ?_, fun c _ => hties c⟩
  · refine perm_of_ties (fun c a => cmp (key c) (key a) = .eq) (fun a => ?_) hties
    exact decide_eq_true Std.ReflCmp.compare_self
  · rw [selected, List.pairwise_flatMap]
    have hkey {entry : K × List Id} {a : α}
        (ha : a ∈ if p entry.1 then itemsOf key cmp items entry.1 else []) :
        cmp (key a) entry.1 = .eq := by
      split at ha
      · exact of_decide_eq_true (List.mem_filter.mp ha).2
      · cases ha
    refine ⟨fun entry _ => List.pairwise_of_forall_mem_list fun a ha b hb => ?_, ?_⟩
    · rw [Std.TransCmp.eq_trans (hkey ha) (Std.OrientedCmp.eq_symm (hkey hb))]
      decide
    · refine Std.ExtTreeMap.ordered_keys_toList.imp ?_
      intro entry entry' hlt a ha b hb
      rw [Std.TransCmp.lt_of_lt_of_eq (Std.TransCmp.lt_of_eq_of_lt (hkey ha) hlt)
        (Std.OrientedCmp.eq_symm (hkey hb))]
      decide

theorem select_tie {k : K} (hp : ∀ k', p k' = true ↔ cmp k' k = .eq) :
    select tree p = Postings.idsAt tree k := by
  rw [h.select_eq, h.idsAt, selected]
  congr 1
  let f := fun k' => if p k' then itemsOf key cmp items k' else []
  have hself : p k = true := (hp k).mpr Std.ReflCmp.compare_self
  have hfind : (tree.toList.flatMap fun entry => f entry.1) = f k := by
    apply flatMap_toList f
    · intro k' hk
      exact if_neg fun htrue => hk ((hp k').mp htrue)
    · intro k' hk
      show (if _ then _ else _) = (if _ then _ else _)
      rw [if_pos ((hp k').mpr hk), if_pos hself, itemsOf_congr hk]
    · intro hstored
      have hids := h.idsAt k
      rw [Postings.idsAt, hstored, eq_comm] at hids
      show (if _ then _ else _) = _
      rw [if_pos hself]
      exact List.map_eq_nil_iff.mp hids
  refine hfind.trans ?_
  exact if_pos hself

end ListsInOrder

end Postings
