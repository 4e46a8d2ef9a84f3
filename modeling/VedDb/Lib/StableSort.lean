import Mathlib.Data.List.Pairwise
import Mathlib.Data.List.Sort
import VedDb.Lib.Comparators

/-!
# Stable sorts

What a stable sort makes of a list: its elements in order, and those that tie as they stood.  A
total preorder leaves no choice, and a merge sort makes it.
-/

namespace VedDb

/-- A merge sort by a total order puts a list in this order. -/
theorem pairwise_mergeSort_decide {α : Type} {R : α → α → Prop} [DecidableRel R]
    (htrans : ∀ a b c, R a b → R b c → R a c) (htotal : ∀ a b, R a b ∨ R b a) (l : List α) :
    (l.mergeSort fun a b => decide (R a b)).Pairwise R := by
  have hsorted : (l.mergeSort fun a b => decide (R a b)).Pairwise
      fun a b => decide (R a b) = true := by
    apply List.pairwise_mergeSort
    · intro a b c hab hbc
      rw [decide_eq_true_eq] at hab hbc ⊢
      exact htrans a b c hab hbc
    · intro a b
      rw [Bool.or_eq_true, decide_eq_true_eq, decide_eq_true_eq]
      exact htotal a b
  exact hsorted.imp fun hab => of_decide_eq_true hab

namespace Comparator

variable {α β : Type} {cmp : α → α → Ordering} {l l₁ l₂ : List α}

structure StableSort (cmp : α → α → Ordering) (l sorted : List α) : Prop where
  perm : sorted.Perm l
  ordered : sorted.Pairwise fun a b => cmp a b ≠ .gt
  stable : ∀ c ∈ l, (sorted.filter fun a => cmp c a = .eq) = l.filter fun a => cmp c a = .eq

/-- A sort by a comparator: a stable one, where the comparator is a total preorder on the list.
Elsewhere it may panic, or give the elements in any order. -/
structure SortBy (α : Type) where
  sort : (α → α → Ordering) → List α → Option (List α)
  perm {cmp : α → α → Ordering} {l sorted : List α} : sort cmp l = some sorted → sorted.Perm l
  stable {cmp : α → α → Ordering} {l : List α} :
    TotalPreorderOn cmp (· ∈ l) → ∃ sorted, sort cmp l = some sorted ∧ StableSort cmp l sorted

/-! ## There is one stable sort -/

theorem TotalPreorderOn.mono {S T : α → Prop} (h : TotalPreorderOn cmp S) (hsub : ∀ a, T a → S a) :
    TotalPreorderOn cmp T where
  refl ha := h.refl (hsub _ ha)
  swap ha hb := h.swap (hsub _ ha) (hsub _ hb)
  trans ha hb hc := h.trans (hsub _ ha) (hsub _ hb) (hsub _ hc)

theorem eq_of_ordered (h : TotalPreorderOn cmp (· ∈ l₁)) (hperm : l₁.Perm l₂)
    (h₁ : l₁.Pairwise fun a b => cmp a b ≠ .gt) (h₂ : l₂.Pairwise fun a b => cmp a b ≠ .gt)
    (hties : ∀ c ∈ l₁,
      (l₁.filter fun a => cmp c a = .eq) = l₂.filter fun a => cmp c a = .eq) : l₁ = l₂ := by
  induction l₁ generalizing l₂ with
  | nil => exact hperm.nil_eq
  | cons x l₁ ih =>
    cases l₂ with
    | nil => exact absurd hperm.length_eq (by simp)
    | cons y l₂ =>
      have hx : x ∈ x :: l₁ := List.mem_cons_self
      have hy : y ∈ x :: l₁ := hperm.mem_iff.mpr List.mem_cons_self
      have hle : cmp x y ≠ .gt := by
        rcases List.mem_cons.mp hy with rfl | hy
        · rw [h.refl hx]
          decide
        · exact (List.pairwise_cons.mp h₁).1 y hy
      have hge : cmp y x ≠ .gt := by
        rcases List.mem_cons.mp (hperm.mem_iff.mp hx) with rfl | hx'
        · rw [h.refl hx]
          decide
        · exact (List.pairwise_cons.mp h₂).1 x hx'
      have htie : cmp x y = .eq := by
        rw [h.swap hx hy] at hge
        cases hcmp : cmp x y with
        | eq => rfl
        | gt => exact absurd hcmp hle
        | lt =>
          rw [hcmp] at hge
          exact absurd rfl hge
      -- the first of those that tie with the first element is that element
      have hsame : x = y := by
        have hfilter := hties x hx
        rw [List.filter_cons_of_pos (by simp [h.refl hx]),
          List.filter_cons_of_pos (by simp [htie])] at hfilter
        exact (List.cons.inj hfilter).1
      subst hsame
      have hrest : l₁.Perm l₂ := List.Perm.cons_inv hperm
      rw [ih (h.mono fun a ha => List.mem_cons_of_mem _ ha) hrest
        (List.pairwise_cons.mp h₁).2 (List.pairwise_cons.mp h₂).2 fun c hc => ?_]
      have hfilter := hties c (List.mem_cons_of_mem _ hc)
      by_cases hcx : cmp c x = .eq
      · rw [List.filter_cons_of_pos (by simp [hcx]),
          List.filter_cons_of_pos (by simp [hcx])] at hfilter
        exact (List.cons.inj hfilter).2
      · rw [List.filter_cons_of_neg (by simp [hcx]),
          List.filter_cons_of_neg (by simp [hcx])] at hfilter
        exact hfilter

theorem StableSort.unique (h : TotalPreorderOn cmp (· ∈ l)) (h₁ : StableSort cmp l l₁)
    (h₂ : StableSort cmp l l₂) : l₁ = l₂ := by
  refine eq_of_ordered (h.mono fun a ha => h₁.perm.mem_iff.mp ha) (h₁.perm.trans h₂.perm.symm)
    h₁.ordered h₂.ordered fun c hc => ?_
  have hmem := h₁.perm.mem_iff.mp hc
  rw [h₁.stable c hmem, h₂.stable c hmem]

/-! ## A merge sort is stable -/

/-- One element is not after another one. -/
def notAfter (cmp : α → α → Ordering) (a b : α) : Bool := cmp a b ≠ .gt

theorem stableSort_mergeSort_of_all (h : TotalPreorderOn cmp fun _ => True) (l : List α) :
    StableSort cmp l (l.mergeSort (notAfter cmp)) := by
  have htrans (a b c : α) (hab : notAfter cmp a b) (hbc : notAfter cmp b c) :
      notAfter cmp a c :=
    decide_eq_true (h.trans trivial trivial trivial (of_decide_eq_true hab) (of_decide_eq_true hbc))
  have htotal (a b : α) : notAfter cmp a b || notAfter cmp b a := by
    rw [notAfter, notAfter, @TotalPreorderOn.swap _ _ _ h a b trivial trivial]
    cases cmp a b with
    | lt => rfl
    | eq => rfl
    | gt => rfl
  refine ⟨List.mergeSort_perm l _, ?_, fun c _ => ?_⟩
  · exact (List.pairwise_mergeSort htrans htotal l).imp fun hle => of_decide_eq_true hle
  · -- those that tie are in order already, so they are found in the sorted list as they stood
    have hties : (l.filter fun a => cmp c a = .eq).Pairwise fun a b => notAfter cmp a b := by
      refine List.pairwise_of_forall_mem_list fun a ha b hb => ?_
      have hca := of_decide_eq_true (List.mem_filter.mp ha).2
      have hcb := of_decide_eq_true (List.mem_filter.mp hb).2
      have hac : cmp a c ≠ .gt := by
        rw [@TotalPreorderOn.swap _ _ _ h c a trivial trivial, hca]
        decide
      exact decide_eq_true (h.trans trivial trivial trivial hac (by rw [hcb]; decide))
    have hsub := (List.sublist_mergeSort htrans htotal hties List.filter_sublist).filter
      fun a => cmp c a = .eq
    rw [List.filter_filter] at hsub
    simp only [Bool.and_self] at hsub
    exact (hsub.eq_of_length (((List.mergeSort_perm l _).filter _).length_eq).symm).symm

theorem stableSort_map {f : β → α} {cmp' : β → β → Ordering}
    (hcmp : ∀ a b, cmp' a b = cmp (f a) (f b)) {l sorted : List β}
    (h : StableSort cmp' l sorted) : StableSort cmp (l.map f) (sorted.map f) := by
  refine ⟨h.perm.map f, ?_, fun c hc => ?_⟩
  · rw [List.pairwise_map]
    exact h.ordered.imp fun hle => by rw [← hcmp]; exact hle
  · obtain ⟨own, hown, rfl⟩ := List.mem_map.mp hc
    have hfilter := h.stable own hown
    rw [List.filter_map, List.filter_map]
    refine congrArg (List.map f) ?_
    simp only [Function.comp_def, ← hcmp]
    exact hfilter

theorem stableSort_mergeSort (h : TotalPreorderOn cmp (· ∈ l)) :
    StableSort cmp l (l.mergeSort (notAfter cmp)) := by
  have hall : TotalPreorderOn (fun a b : { a // a ∈ l } => cmp a b) fun _ => True :=
    { refl := fun {a} _ => h.refl a.2
      swap := fun {a b} _ _ => h.swap a.2 b.2
      trans := fun {a b c} _ _ _ => h.trans a.2 b.2 c.2 }
  have hmap := stableSort_map (f := Subtype.val) (fun _ _ => rfl)
    (stableSort_mergeSort_of_all hall l.attach)
  have hmerge := List.map_mergeSort (r := notAfter fun a b : { a // a ∈ l } => cmp a b)
    (s := notAfter cmp) (f := Subtype.val) (l := l.attach) fun _ _ _ _ => rfl
  rw [hmerge, List.attach_map_subtype_val] at hmap
  exact hmap

/-! ## Sorts -/

def SortBy.merge (α : Type) : SortBy α where
  sort cmp l := some (l.mergeSort (notAfter cmp))
  perm hsort := Option.some.inj hsort ▸ List.mergeSort_perm _ _
  stable hpre := ⟨_, rfl, stableSort_mergeSort hpre⟩

instance (cmp : α → α → Ordering) (l : List α) : Decidable (TotalPreorderOn cmp (· ∈ l)) :=
  decidable_of_iff
    ((∀ a ∈ l, cmp a a = .eq) ∧ (∀ a ∈ l, ∀ b ∈ l, cmp b a = (cmp a b).swap) ∧
      ∀ a ∈ l, ∀ b ∈ l, ∀ c ∈ l, cmp a b ≠ .gt → cmp b c ≠ .gt → cmp a c ≠ .gt)
    ⟨fun h => ⟨h.1 _, fun {a b} ha hb => h.2.1 a ha b hb,
        fun {a b c} ha hb hc => h.2.2 a ha b hb c hc⟩,
      fun h => ⟨fun _ => h.refl, fun _ ha _ hb => h.swap ha hb,
        fun _ ha _ hb _ hc => h.trans ha hb hc⟩⟩

def SortBy.strict (α : Type) : SortBy α where
  sort cmp l := if TotalPreorderOn cmp (· ∈ l) then some (l.mergeSort (notAfter cmp)) else none
  perm hsort := by
    rw [← Option.some.inj (Option.ite_none_right_eq_some.mp hsort).2]
    exact List.mergeSort_perm _ _
  stable hpre := ⟨_, if_pos hpre, stableSort_mergeSort hpre⟩

theorem SortBy.strict_eq_some_iff : (SortBy.strict α).sort cmp l = some l₁ ↔
    TotalPreorderOn cmp (· ∈ l) ∧ l.mergeSort (notAfter cmp) = l₁ := by
  rw [SortBy.strict, Option.ite_none_right_eq_some, Option.some.injEq]

theorem SortBy.strict_eq_none (h : ¬TotalPreorderOn cmp (· ∈ l)) :
    (SortBy.strict α).sort cmp l = none := if_neg h

theorem SortBy.sort_eq (sortBy : SortBy α) (hpre : TotalPreorderOn cmp (· ∈ l)) :
    sortBy.sort cmp l = some (l.mergeSort (notAfter cmp)) := by
  obtain ⟨sorted, hsort, hstable⟩ := sortBy.stable hpre
  rw [hsort, hstable.unique hpre (stableSort_mergeSort hpre)]

/-- Elements that tie keep what the order of the list says of them. -/
theorem StableSort.pairwise {R : α → α → Prop} {sorted : List α} (h : StableSort cmp l sorted)
    (hrefl : ∀ a ∈ l, cmp a a = .eq) (hl : l.Pairwise R) :
    sorted.Pairwise fun a b => cmp a b = .lt ∨ (cmp a b = .eq ∧ R a b) := by
  rw [List.pairwise_iff_forall_sublist]
  intro a b hsub
  have hordered : cmp a b ≠ .gt := List.pairwise_iff_forall_sublist.mp h.ordered hsub
  have ha : a ∈ l := h.perm.mem_iff.mp (hsub.subset List.mem_cons_self)
  cases hcmp : cmp a b with
  | lt => exact .inl rfl
  | gt => exact absurd hcmp hordered
  | eq =>
    -- Both stand among those that tie with the first, in the list as in the sorted one.
    have hties := hsub.filter fun c => cmp a c = .eq
    rw [h.stable a ha, List.filter_cons_of_pos (by simpa using hrefl a ha),
      List.filter_cons_of_pos (by simpa using hcmp), List.filter_nil] at hties
    have hown := hties.trans List.filter_sublist
    exact .inr ⟨rfl, List.pairwise_iff_forall_sublist.mp hl hown⟩

/-! ## Lists that sorts leave as they are -/

theorem StableSort.self (h : l.Pairwise fun a b => cmp a b ≠ .gt) : StableSort cmp l l where
  perm := .refl l
  ordered := h
  stable _ _ := rfl

/-- Every sort leaves what a comparator can tell of the elements as it is in the list exactly when
the comparator is a total preorder on the list and the list is in its order. -/
theorem sorts_keep_iff {key : α → β} (own : β → β → Ordering)
    (hcmp : ∀ a b, cmp a b = own (key a) (key b)) :
    (∀ sortBy : SortBy α, (sortBy.sort cmp l).map (List.map key) = some (l.map key)) ↔
      TotalPreorderOn cmp (· ∈ l) ∧ l.Pairwise fun a b => cmp a b ≠ .gt := by
  constructor
  · intro h
    obtain ⟨sorted, hsort, hkeep⟩ := Option.map_eq_some_iff.mp (h (.strict α))
    obtain ⟨hpre, rfl⟩ := SortBy.strict_eq_some_iff.mp hsort
    have hpairs (l : List α) :
        (l.Pairwise fun a b => cmp a b ≠ .gt) ↔ (l.map key).Pairwise fun a b => own a b ≠ .gt := by
      rw [List.pairwise_map]
      simp only [hcmp]
    exact ⟨hpre, (hpairs l).mpr (hkeep ▸ (hpairs _).mp (stableSort_mergeSort hpre).ordered)⟩
  · rintro ⟨hpre, hordered⟩ sortBy
    rw [sortBy.sort_eq hpre, (stableSort_mergeSort hpre).unique hpre (.self hordered)]
    rfl

end Comparator

/-!
## Lists in two orders

When the first entries of a list in one order are the first entries of a sublist of it in another.
-/

section

variable {α : Type} {r s : α → α → Prop} {xs ys : List α} {n : Nat}

/-- What both orders say of a list they both sort. -/
theorem le_of_sorted_both (hirrefl : ∀ x, ¬r x x) (hasymm : ∀ x y, r x y → ¬r y x)
    (hr : xs.Pairwise r) (hs : xs.Pairwise s) {x y : α} (hx : x ∈ xs) (hy : y ∈ xs) (hxy : r x y) :
    s x y := by
  let agree (x y : α) : Prop := (r x y → s x y) ∧ (r y x → s y x)
  have hsymm : Std.Symm agree := ⟨fun _ _ h => ⟨h.2, h.1⟩⟩
  have hpair : xs.Pairwise agree :=
    (hr.and hs).imp fun h => ⟨fun _ => h.2, fun hback => (hasymm _ _ h.1 hback).elim⟩
  have hself : ∀ x ∈ xs, agree x x := fun x _ =>
    ⟨fun h => (hirrefl x h).elim, fun h => (hirrefl x h).elim⟩
  exact (hpair.forall_of_forall hself hx hy).1 hxy

/-- Two lists, each sorted in its own order, begin alike exactly when each of the first entries of
the one is in the other, and comes first there of all that come after it here. -/
theorem take_eq_take_iff_of_sorted (hirrefl : ∀ x, ¬r x x) (hasymm : ∀ x y, r x y → ¬r y x)
    (hasymm' : ∀ x y, s x y → ¬s y x) (hr : xs.Pairwise r) (hs : ys.Pairwise s) (hsub : ys ⊆ xs) :
    xs.take n = ys.take n ↔
      ∀ x ∈ xs.take n, x ∈ ys ∧ ∀ y ∈ ys, r x y → s x y := by
  constructor
  · intro heq x hx
    have hxy : x ∈ ys.take n := heq ▸ hx
    refine ⟨List.mem_of_mem_take hxy, fun y hy hlt => ?_⟩
    rw [← List.take_append_drop n ys, List.mem_append] at hy
    rcases hy with hy | hy
    · have hboth : (ys.take n).Pairwise r := heq ▸ hr.take
      exact le_of_sorted_both hirrefl hasymm hboth hs.take hxy hy hlt
    · rw [← List.take_append_drop n ys, List.pairwise_append] at hs
      exact hs.2.2 x hxy y hy
  · intro h
    induction n generalizing xs ys with
    | zero => rfl
    | succ n ih =>
      cases xs with
      | nil => rw [List.eq_nil_of_subset_nil hsub]
      | cons x xs =>
        have ⟨hx, hfirst⟩ := h x List.mem_cons_self
        have ⟨hhead, hrest⟩ := List.pairwise_cons.mp hr
        cases ys with
        | nil => cases hx
        | cons y ys =>
          have ⟨hhead', hrest'⟩ := List.pairwise_cons.mp hs
          -- The first entry of one list is the first of the other.
          have heq : y = x := by
            by_contra hne
            have hmem : x ∈ ys := (List.mem_cons.mp hx).resolve_left fun h => hne h.symm
            have hlater : y ∈ xs :=
              (List.mem_cons.mp (hsub List.mem_cons_self)).resolve_left hne
            exact hasymm' x y (hfirst y List.mem_cons_self (hhead y hlater)) (hhead' x hmem)
          subst heq
          have hnotMem : y ∉ ys := fun hmem => hasymm' y y (hhead' y hmem) (hhead' y hmem)
          rw [List.take_succ_cons, List.take_succ_cons, ih hrest hrest']
          · intro z hz
            refine (List.mem_cons.mp (hsub (List.mem_cons_of_mem _ hz))).resolve_left ?_
            rintro rfl
            exact hnotMem hz
          · intro z hz
            have hzmem : z ∈ xs := List.mem_of_mem_take hz
            have ⟨hzys, hzfirst⟩ := h z (List.mem_cons_of_mem _ hz)
            have hne : z ≠ y := by
              rintro rfl
              exact hirrefl z (hhead z hzmem)
            exact ⟨(List.mem_cons.mp hzys).resolve_left hne,
              fun w hw => hzfirst w (List.mem_cons_of_mem _ hw)⟩

end

/-- The first entries of a sorted list are those that few others come before. -/
theorem mem_take_iff_of_sorted {α : Type} {r : α → α → Prop} [DecidableRel r] {xs : List α}
    {n : Nat} (hirrefl : ∀ x, ¬r x x) (hasymm : ∀ x y, r x y → ¬r y x) (hr : xs.Pairwise r)
    {x : α} :
    x ∈ xs.take n ↔ x ∈ xs ∧ (xs.filter fun y => r y x).length < n := by
  induction xs generalizing n with
  | nil => simp
  | cons y ys ih =>
    have ⟨hhead, hrest⟩ := List.pairwise_cons.mp hr
    cases n with
    | zero => simp
    | succ n =>
      rw [List.take_succ_cons, List.mem_cons, List.mem_cons, ih hrest]
      by_cases hxy : x = y
      · subst hxy
        have hnone : (x :: ys).filter (fun z => r z x) = [] := by
          rw [List.filter_eq_nil_iff]
          intro z hz
          rcases List.mem_cons.mp hz with rfl | hz
          · simpa using hirrefl z
          · simpa using hasymm x z (hhead z hz)
        simp [hnone]
      · by_cases hx : x ∈ ys
        · have hbefore : r y x := hhead x hx
          simp [hxy, hx, hbefore]
        · simp [hxy, hx]

end VedDb
