import VedDb.Lib.StableSort

/-!
# Sorts that draw their comparator

A sort whose comparator is one of several, by chance.  All its runs sort by a comparator that was
asked for exactly when every comparator that may be drawn agrees with it on the list.  Several
comparisons in an unknown order are such a choice: no order of them matters to two elements exactly
when no two comparisons contradict each other on them.
-/

namespace VedDb

namespace Comparator

variable {α : Type} {cmp cmp' : α → α → Ordering} {l sorted : List α} {S : α → Prop}

/-! ## Comparators that agree -/

theorem TotalPreorderOn.congr (h : TotalPreorderOn cmp S)
    (hagree : ∀ a b, S a → S b → cmp' a b = cmp a b) : TotalPreorderOn cmp' S where
  refl ha := (hagree _ _ ha ha).trans (h.refl ha)
  swap ha hb := by rw [hagree _ _ hb ha, hagree _ _ ha hb, h.swap ha hb]
  trans ha hb hc := by
    rw [hagree _ _ ha hb, hagree _ _ hb hc, hagree _ _ ha hc]
    exact h.trans ha hb hc

theorem StableSort.congr (h : StableSort cmp l sorted)
    (hagree : ∀ a ∈ l, ∀ b ∈ l, cmp' a b = cmp a b) : StableSort cmp' l sorted where
  perm := h.perm
  ordered := by
    refine h.ordered.imp_of_mem ?_
    intro a b ha hb hab
    rwa [hagree a (h.perm.mem_iff.mp ha) b (h.perm.mem_iff.mp hb)]
  stable c hc := by
    have hfilter (l' : List α) (hsub : ∀ a ∈ l', a ∈ l) :
        (l'.filter fun a => cmp' c a = .eq) = l'.filter fun a => cmp c a = .eq := by
      apply List.filter_congr
      intro a ha
      rw [hagree c hc a (hsub a ha)]
    rw [hfilter sorted fun a ha => h.perm.mem_iff.mp ha, hfilter l fun a ha => ha, h.stable c hc]

/-! ## Runs -/

theorem SortBy.merge_pair (cmp : α → α → Ordering) (a b : α) :
    (SortBy.merge α).sort cmp [a, b] = some (if cmp a b = .gt then [b, a] else [a, b]) := by
  simp only [SortBy.merge, List.mergeSort, List.MergeSort.Internal.splitInTwo]
  cases hcmp : cmp a b <;> simp [notAfter, hcmp]

theorem agree_of_same_sort (hcmp : Sided cmp) (hcmp' : Sided cmp')
    (hties : ∀ a b, cmp a b = .eq ↔ cmp' a b = .eq) (h : StableSort cmp l sorted)
    (h' : StableSort cmp' l sorted) : ∀ a ∈ l, ∀ b ∈ l, cmp a b = cmp' a b := by
  have hbefore {a b : α} (hle : cmp a b ≠ .gt) (hle' : cmp' a b ≠ .gt) : cmp a b = cmp' a b := by
    have htie := hties a b
    cases hab : cmp a b with
    | gt => exact absurd hab hle
    | eq => exact (htie.mp hab).symm
    | lt =>
      cases hab' : cmp' a b with
      | gt => exact absurd hab' hle'
      | lt => rfl
      | eq => rw [htie.mpr hab'] at hab; cases hab
  intro a ha b hb
  obtain ⟨first, rest, hsplit⟩ := List.append_of_mem (h.perm.mem_iff.mpr ha)
  have hordered := h.ordered
  have hordered' := h'.ordered
  rw [hsplit, List.pairwise_append, List.pairwise_cons] at hordered hordered'
  have hmem : b ∈ first ++ a :: rest := hsplit ▸ h.perm.mem_iff.mpr hb
  rcases List.mem_append.mp hmem with hfirst | hrest
  · have hagree := hbefore (hordered.2.2 b hfirst a List.mem_cons_self)
      (hordered'.2.2 b hfirst a List.mem_cons_self)
    rw [hcmp b a, hcmp' b a, hagree]
  · rcases List.mem_cons.mp hrest with rfl | hrest
    · rw [hcmp.refl, hcmp'.refl]
    · exact hbefore (hordered.2.1.1 b hrest) (hordered'.2.1.1 b hrest)

theorem runs_sort_iff {ι : Type} [Nonempty ι] (drawn : ι → α → α → Ordering)
    {asked : α → α → Ordering} (hsided : ∀ i, Sided (drawn i)) (hasked : Sided asked)
    (hties : ∀ i a b, drawn i a b = .eq ↔ asked a b = .eq) (l : List α) :
    ((∀ (sortBy : SortBy α) i, ∃ sorted, sortBy.sort (drawn i) l = some sorted ∧
        StableSort asked l sorted) ∧
      ∀ (sortBy sortBy' : SortBy α) i j, sortBy.sort (drawn i) l = sortBy'.sort (drawn j) l) ↔
    TotalPreorderOn asked (· ∈ l) ∧ ∀ i, ∀ a ∈ l, ∀ b ∈ l, drawn i a b = asked a b := by
  constructor
  · rintro ⟨hsorts, -⟩
    have hown (i : ι) : TotalPreorderOn (drawn i) (· ∈ l) ∧
        ∀ a ∈ l, ∀ b ∈ l, drawn i a b = asked a b := by
      obtain ⟨sorted, hsort, hstable⟩ := hsorts (.strict α) i
      obtain ⟨hpre, rfl⟩ := SortBy.strict_eq_some_iff.mp hsort
      exact ⟨hpre, agree_of_same_sort (hsided i) hasked (hties i) (stableSort_mergeSort hpre)
        hstable⟩
    obtain ⟨i⟩ := ‹Nonempty ι›
    exact ⟨(hown i).1.congr fun a b ha hb => ((hown i).2 a ha b hb).symm, fun i => (hown i).2⟩
  · rintro ⟨hpre, hagree⟩
    have hdrawn (i : ι) : TotalPreorderOn (drawn i) (· ∈ l) :=
      hpre.congr fun a b ha hb => hagree i a ha b hb
    have hsorts (i : ι) : StableSort asked l (l.mergeSort (notAfter (drawn i))) :=
      (stableSort_mergeSort (hdrawn i)).congr fun a ha b hb => (hagree i a ha b hb).symm
    refine ⟨fun sortBy i => ⟨_, sortBy.sort_eq (hdrawn i), hsorts i⟩,
      fun sortBy sortBy' i j => ?_⟩
    rw [sortBy.sort_eq (hdrawn i), sortBy'.sort_eq (hdrawn j), (hsorts i).unique hpre (hsorts j)]

/-! ## Comparisons in any order -/

variable {κ : Type} {compareKey : κ → α → α → Ordering} {keys : List κ} {a b : α}

/-- Comparisons of which none decides otherwise decide as one of them does. -/
theorem lexicographic_of_mem {order : Ordering} (horder : order ≠ .eq)
    (h : ∀ k ∈ keys, compareKey k a b ≠ order.swap) {k : κ} (hk : k ∈ keys)
    (hown : compareKey k a b = order) : lexicographic (keys.map compareKey) a b = order := by
  induction keys with
  | nil => cases hk
  | cons head keys ih =>
    rw [List.forall_mem_cons] at h
    rw [List.map_cons]
    by_cases heq : compareKey head a b = .eq
    · rw [lexicographic_of_eq heq]
      refine ih h.2 ((List.mem_cons.mp hk).resolve_left ?_)
      rintro rfl
      exact horder (hown.symm.trans heq)
    · rw [lexicographic_of_ne heq]
      cases hcmp : compareKey head a b with
      | eq => exact absurd hcmp heq
      | lt =>
        cases order with
        | lt => rfl
        | eq => exact absurd rfl horder
        | gt => exact absurd hcmp h.1
      | gt =>
        cases order with
        | lt => exact absurd hcmp h.1
        | eq => exact absurd rfl horder
        | gt => rfl

/-- What ties by the keys does so whatever their order is. -/
theorem lexicographic_ties_iff {keys' : List κ} (h : keys.Perm keys') (a b : α) :
    lexicographic (keys.map compareKey) a b = .eq ↔
      lexicographic (keys'.map compareKey) a b = .eq := by
  rw [lexicographic_eq_eq_iff, lexicographic_eq_eq_iff, List.forall_mem_map, List.forall_mem_map]
  exact forall_congr' fun key => by rw [h.mem_iff]

/-- Two keys compare two elements the opposite way. -/
def Opposed (compareKey : κ → α → α → Ordering) (keys : List κ) (a b : α) : Prop :=
  ∃ k ∈ keys, ∃ k' ∈ keys, compareKey k a b = .lt ∧ compareKey k' a b = .gt

/-- The order of the keys does not matter to two elements exactly when no two keys are opposed. -/
theorem lexicographic_perm_iff :
    (∀ keys' : List κ, keys'.Perm keys →
      lexicographic (keys'.map compareKey) a b = lexicographic (keys.map compareKey) a b) ↔
      ¬Opposed compareKey keys a b := by
  constructor
  · rintro h ⟨k, hk, k', hk', hlt, hgt⟩
    have hfirst {k : κ} (hk : k ∈ keys) (hne : compareKey k a b ≠ .eq) :
        lexicographic (keys.map compareKey) a b = compareKey k a b := by
      obtain ⟨before, after, rfl⟩ := List.append_of_mem hk
      have hmoved := h (k :: (before ++ after)) List.perm_middle.symm
      rw [← hmoved, List.map_cons, lexicographic_of_ne hne]
    have hsame := (hfirst hk (by rw [hlt]; decide)).symm.trans (hfirst hk' (by rw [hgt]; decide))
    rw [hlt, hgt] at hsame
    cases hsame
  · intro h keys' hperm
    have hdecides (order : Ordering) (horder : order ≠ .eq)
        (hnot : ∀ k ∈ keys, compareKey k a b ≠ order.swap) {k : κ} (hk : k ∈ keys)
        (hown : compareKey k a b = order) :
        lexicographic (keys'.map compareKey) a b = lexicographic (keys.map compareKey) a b := by
      rw [lexicographic_of_mem horder hnot hk hown]
      exact lexicographic_of_mem horder (fun k hk => hnot k (hperm.mem_iff.mp hk))
        (hperm.mem_iff.mpr hk) hown
    by_cases hlt : ∃ k ∈ keys, compareKey k a b = .lt
    · obtain ⟨k, hk, hown⟩ := hlt
      exact hdecides .lt (by decide) (fun k' hk' hgt => h ⟨k, hk, k', hk', hown, hgt⟩) hk hown
    · by_cases hgt : ∃ k ∈ keys, compareKey k a b = .gt
      · obtain ⟨k, hk, hown⟩ := hgt
        exact hdecides .gt (by decide) (fun k' hk' hlt' => hlt ⟨k', hk', hlt'⟩) hk hown
      · have heq {own : List κ} (hsub : ∀ k ∈ own, k ∈ keys) :
            lexicographic (own.map compareKey) a b = .eq := by
          rw [lexicographic_eq_eq_iff, List.forall_mem_map]
          intro k hk
          cases hcmp : compareKey k a b with
          | eq => rfl
          | lt => exact absurd ⟨k, hsub k hk, hcmp⟩ hlt
          | gt => exact absurd ⟨k, hsub k hk, hcmp⟩ hgt
        rw [heq fun k hk => hperm.mem_iff.mp hk, heq fun k hk => hk]

end Comparator

end VedDb
