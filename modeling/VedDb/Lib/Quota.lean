import Mathlib.Algebra.GroupWithZero.Nat
import Mathlib.Algebra.Order.BigOperators.Group.List
import Mathlib.Algebra.Order.Group.Nat
import VedDb.Lib.StableSort

/-!
# Taking until a quota is reached

The elements of a list are taken one by one until their measures reach a target.  In a sorted list
the elements that come before another one are taken first; among those that tie, the arrangement
before the sort decides.
-/

namespace VedDb

variable {α : Type}

/-- The first elements, as long as the measures before them are short of the target. -/
def takeUntil (measure : α → Nat) (target : Nat) : Nat → List α → List α
  | _, [] => []
  | reached, a :: l =>
    if target ≤ reached then [] else a :: takeUntil measure target (reached + measure a) l

section

variable {measure : α → Nat} {target reached : Nat} {l : List α}

theorem takeUntil_initial (l : List α) : takeUntil measure target reached l <+: l := by
  induction l generalizing reached with
  | nil => exact List.prefix_rfl
  | cons a l ih =>
    rw [takeUntil]
    split
    · exact List.nil_prefix
    · exact (List.prefix_cons_inj a).mpr ih

theorem takeUntil_reaches (l : List α) :
    target ≤ reached + ((takeUntil measure target reached l).map measure).sum ∨
      takeUntil measure target reached l = l := by
  induction l generalizing reached with
  | nil => exact .inr rfl
  | cons a l ih =>
    rw [takeUntil]
    split
    next h => exact .inl (Nat.le_add_right_of_le h)
    next h =>
      rw [List.map_cons, List.sum_cons, ← Nat.add_assoc]
      refine Or.imp_right (fun heq => ?_) ih
      rw [heq]

theorem takeUntil_short {first : List α} {last : α}
    (h : takeUntil measure target reached l = first ++ [last]) :
    reached + (first.map measure).sum < target := by
  induction l generalizing reached first with
  | nil => exact absurd h (by simp [takeUntil])
  | cons a l ih =>
    rw [takeUntil] at h
    split at h
    next => exact absurd h (by simp)
    next hshort =>
      cases first with
      | nil => simpa using hshort
      | cons b first =>
        obtain ⟨rfl, hrest⟩ := List.cons.inj h
        rw [List.map_cons, List.sum_cons, ← Nat.add_assoc]
        exact ih hrest

/-- An element is taken when what stands before it is short of the target. -/
theorem mem_takeUntil_iff {before after : List α} {a : α} (hnodup : (before ++ a :: after).Nodup) :
    a ∈ takeUntil measure target reached (before ++ a :: after) ↔
      reached + (before.map measure).sum < target := by
  induction before generalizing reached with
  | nil =>
    rw [List.nil_append, takeUntil]
    split
    next h => simpa using h
    next h => simpa using h
  | cons b before ih =>
    rw [List.cons_append, List.nodup_cons] at hnodup
    have hne : a ≠ b := by
      rintro rfl
      exact hnodup.1 (List.mem_append_right _ List.mem_cons_self)
    rw [List.cons_append, takeUntil, List.map_cons, List.sum_cons]
    split
    next h =>
      refine iff_of_false (List.not_mem_nil) ?_
      omega
    next h =>
      rw [List.mem_cons, or_iff_right hne, ih hnodup.2, Nat.add_assoc]

end

/-! ## Sorted lists -/

namespace Comparator

variable (cmp : α → α → Ordering) (measure : α → Nat) (l : List α)

/-- The measure of the elements that come before an element, whatever the arrangement. -/
def below (a : α) : Nat := ((l.filter fun b => cmp b a = .lt).map measure).sum

/-- The measure of the elements that do not come after an element, itself among them. -/
def upTo (a : α) : Nat := ((l.filter fun b => cmp b a ≠ .gt).map measure).sum

variable {cmp measure l}

theorem sum_filter_perm {l' : List α} (h : l'.Perm l) (p : α → Bool) :
    ((l'.filter p).map measure).sum = ((l.filter p).map measure).sum :=
  ((h.filter p).map measure).sum_eq

variable (hcmp : TotalPreorderOn cmp fun _ => True) {sorted before after : List α} {a b : α}

include hcmp

/-- In a sorted list what comes before an element stands before it. -/
theorem below_le (hperm : sorted.Perm l) (h : sorted.Pairwise fun a b => cmp a b ≠ .gt)
    (hsplit : sorted = before ++ a :: after) :
    below cmp measure l a ≤ (before.map measure).sum := by
  have hafter : (a :: after).filter (fun b => cmp b a = .lt) = [] := by
    rw [List.filter_eq_nil_iff]
    rw [hsplit] at h
    intro b hb
    have hswap := @TotalPreorderOn.swap _ _ _ hcmp a b trivial trivial
    rcases List.mem_cons.mp hb with rfl | hb
    · simp [@TotalPreorderOn.refl _ _ _ hcmp b trivial]
    · have hne := (List.pairwise_cons.mp (List.pairwise_append.mp h).2.1).1 b hb
      rw [hswap]
      cases hab : cmp a b with
      | lt => simp
      | eq => simp
      | gt => exact absurd hab hne
  rw [below, ← sum_filter_perm hperm, hsplit, List.filter_append, hafter, List.append_nil]
  exact (List.filter_sublist.map measure).sum_le_sum fun _ _ => Nat.zero_le _

/-- What stands before an element of a sorted list does not come after it. -/
theorem le_upTo (hperm : sorted.Perm l) (h : sorted.Pairwise fun a b => cmp a b ≠ .gt)
    (hsplit : sorted = before ++ b :: after) :
    (before.map measure).sum + measure b ≤ upTo cmp measure l b := by
  rw [hsplit] at h
  have hbefore : before.filter (fun c => cmp c b ≠ .gt) = before := by
    rw [List.filter_eq_self]
    intro c hc
    simpa using (List.pairwise_append.mp h).2.2 c hc b List.mem_cons_self
  have hown : cmp b b ≠ .gt := by
    rw [@TotalPreorderOn.refl _ _ _ hcmp b trivial]
    decide
  rw [upTo, ← sum_filter_perm hperm, hsplit, List.filter_append, hbefore,
    List.filter_cons_of_pos (by simpa using hown), List.map_append, List.sum_append, List.map_cons,
    List.sum_cons]
  omega

omit hcmp in
/-- Where the element is the first of those that tie with it, only what comes before it stands
before it. -/
theorem sum_before_le (hperm : sorted.Perm l)
    (h : sorted.Pairwise fun b c => cmp b c = .lt ∨ (cmp b c = .eq ∧ c ≠ a))
    (hsplit : sorted = before ++ a :: after) :
    (before.map measure).sum ≤ below cmp measure l a := by
  rw [hsplit] at h
  have hbefore : before.filter (fun b => cmp b a = .lt) = before := by
    rw [List.filter_eq_self]
    intro b hb
    rcases (List.pairwise_append.mp h).2.2 b hb a List.mem_cons_self with hlt | ⟨_, hne⟩
    · simpa using hlt
    · exact absurd rfl hne
  rw [below, ← sum_filter_perm hperm, hsplit, List.filter_append, hbefore, List.map_append,
    List.sum_append]
  exact Nat.le_add_right _ _

/-- Where the element is the last of those that tie with it, all that does not come after it stands
before it. -/
theorem upTo_le (hperm : sorted.Perm l)
    (h : sorted.Pairwise fun a c => cmp a c = .lt ∨ (cmp a c = .eq ∧ a ≠ b))
    (hsplit : sorted = before ++ b :: after) :
    upTo cmp measure l b ≤ (before.map measure).sum + measure b := by
  rw [hsplit] at h
  have hafter : after.filter (fun c => cmp c b ≠ .gt) = [] := by
    rw [List.filter_eq_nil_iff]
    intro c hc
    rcases (List.pairwise_cons.mp (List.pairwise_append.mp h).2.1).1 c hc with hlt | ⟨_, hne⟩
    · rw [@TotalPreorderOn.swap _ _ _ hcmp b c trivial trivial, hlt]
      simp
    · exact absurd rfl hne
  have hown : cmp b b ≠ .gt := by
    rw [@TotalPreorderOn.refl _ _ _ hcmp b trivial]
    decide
  rw [upTo, ← sum_filter_perm hperm, hsplit, List.filter_append,
    List.filter_cons_of_pos (by simpa using hown), hafter, List.map_append, List.sum_append,
    List.map_cons, List.map_nil, List.sum_cons, List.sum_nil]
  have hsub : ((before.filter fun c => cmp c b ≠ .gt).map measure).sum ≤
      (before.map measure).sum :=
    (List.filter_sublist.map measure).sum_le_sum fun _ _ => Nat.zero_le _
  omega

omit hcmp in
/-- Two elements of a list can be put at its ends. -/
theorem exists_ends (ha : a ∈ l) (hb : b ∈ l) (hne : a ≠ b) :
    ∃ middle, (a :: (middle ++ [b])).Perm l := by
  obtain ⟨first, rest, rfl⟩ := List.append_of_mem ha
  have hb' : b ∈ first ++ rest := by
    rcases List.mem_append.mp hb with hb | hb
    · exact List.mem_append_left _ hb
    · exact List.mem_append_right _ ((List.mem_cons.mp hb).resolve_left (Ne.symm hne))
  obtain ⟨first', rest', hsplit⟩ := List.append_of_mem hb'
  refine ⟨first' ++ rest', ?_⟩
  have hinner : ((first' ++ rest') ++ [b]).Perm (first ++ rest) := by
    rw [hsplit]
    exact (List.perm_append_singleton b _).trans List.perm_middle.symm
  exact (hinner.cons a).trans List.perm_middle.symm

variable (measure) in
theorem taken_sorted_iff (target : Nat) (hnodup : l.Nodup) (ill : α → α → Prop)
    (hill : ∀ a, ¬ill a a) :
    (∀ arranged, arranged.Perm l → ∀ sorted, StableSort cmp arranged sorted →
      ∀ a ∈ takeUntil measure target 0 sorted, ∀ b ∈ l,
        b ∉ takeUntil measure target 0 sorted → ¬ill a b) ↔
    ¬∃ a ∈ l, ∃ b ∈ l, ill a b ∧ cmp a b ≠ .gt ∧ below cmp measure l a < target ∧
      target + measure b ≤ upTo cmp measure l b := by
  constructor
  · rintro h ⟨a, ha, b, hb, hab, hle, hbelow, hupTo⟩
    have hne : a ≠ b := fun heq => hill b (heq ▸ hab)
    obtain ⟨middle, hends⟩ := exists_ends ha hb hne
    have hsort := stableSort_mergeSort
      (hcmp.mono (T := (· ∈ a :: (middle ++ [b]))) fun _ _ => trivial)
    generalize (a :: (middle ++ [b])).mergeSort (notAfter cmp) = sorted at hsort
    have hperm : sorted.Perm l := hsort.perm.trans hends
    have hnodup' : sorted.Nodup := hperm.nodup_iff.mpr hnodup
    have harranged : (a :: (middle ++ [b])).Pairwise fun c d => c ≠ b ∧ d ≠ a := by
      obtain ⟨hfirst, hrest⟩ := List.nodup_cons.mp (hends.nodup_iff.mpr hnodup)
      have hother (d : α) (hd : d ∈ middle ++ [b]) : d ≠ a := fun heq => hfirst (heq ▸ hd)
      have hlast (c : α) (hc : c ∈ middle) : c ≠ b := by
        rintro rfl
        exact (List.nodup_append.mp hrest).2.2 c hc c List.mem_cons_self rfl
      refine List.pairwise_cons.mpr ⟨fun d hd => ⟨hne, hother d hd⟩, ?_⟩
      refine List.pairwise_append.mpr ⟨?_, List.pairwise_singleton _ _, ?_⟩
      · exact List.pairwise_of_forall_mem_list fun c hc d hd =>
          ⟨hlast c hc, hother d (List.mem_append_left _ hd)⟩
      · intro c hc d hd
        exact ⟨hlast c hc, hother d (List.mem_append_right _ hd)⟩
    have hpairs := hsort.pairwise (fun c _ => hcmp.refl trivial) harranged
    obtain ⟨before, after, hsplit⟩ := List.append_of_mem (hperm.mem_iff.mpr ha)
    obtain ⟨before', after', hsplit'⟩ := List.append_of_mem (hperm.mem_iff.mpr hb)
    have hbefore : (before.map measure).sum ≤ below cmp measure l a :=
      sum_before_le hperm (hpairs.imp fun h => h.imp_right fun h => ⟨h.1, h.2.2⟩) hsplit
    have hbefore' : upTo cmp measure l b ≤ (before'.map measure).sum + measure b :=
      upTo_le hcmp hperm (hpairs.imp fun h => h.imp_right fun h => ⟨h.1, h.2.1⟩) hsplit'
    refine h _ hends sorted hsort a ?_ b hb ?_ hab
    · rw [hsplit] at hnodup' ⊢
      rw [mem_takeUntil_iff hnodup']
      omega
    · rw [hsplit'] at hnodup' ⊢
      rw [mem_takeUntil_iff hnodup']
      omega
  · intro h arranged harranged sorted hsort a htaken b hb hleft hab
    have hperm : sorted.Perm l := hsort.perm.trans harranged
    have hnodup' : sorted.Nodup := hperm.nodup_iff.mpr hnodup
    have ha : a ∈ l := hperm.mem_iff.mp ((takeUntil_initial sorted).subset htaken)
    have hshort {before after : List α} (hsplit : sorted = before ++ a :: after) :
        (before.map measure).sum < target := by
      rw [hsplit] at hnodup' htaken
      simpa using (mem_takeUntil_iff hnodup').mp htaken
    obtain ⟨before, after, hsplit⟩ := List.append_of_mem (hperm.mem_iff.mpr ha)
    obtain ⟨before', after', hsplit'⟩ := List.append_of_mem (hperm.mem_iff.mpr hb)
    have hlong : target ≤ (before'.map measure).sum := by
      rw [hsplit'] at hnodup' hleft
      rw [mem_takeUntil_iff hnodup'] at hleft
      omega
    have hbelow : below cmp measure l a ≤ (before.map measure).sum :=
      below_le hcmp hperm hsort.ordered hsplit
    have hupTo : (before'.map measure).sum + measure b ≤ upTo cmp measure l b :=
      le_upTo hcmp hperm hsort.ordered hsplit'
    have hown := hshort hsplit
    refine h ⟨a, ha, b, hb, hab, ?_, by omega, by omega⟩
    have hmem : a ∈ before' ++ b :: after' := hsplit' ▸ hperm.mem_iff.mpr ha
    rcases List.mem_append.mp hmem with hmem | hmem
    · have hordered := hsort.ordered
      rw [hsplit'] at hordered
      exact (List.pairwise_append.mp hordered).2.2 a hmem b List.mem_cons_self
    · rcases List.mem_cons.mp hmem with rfl | hmem
      · exact absurd hab (hill a)
      · -- What is taken does not stand behind what is left.
        obtain ⟨between, rest, rfl⟩ := List.append_of_mem hmem
        have hbehind : ((before' ++ b :: between).map measure).sum < target := by
          refine hshort (?_ : sorted = (before' ++ b :: between) ++ a :: rest)
          rw [hsplit', List.append_assoc, List.cons_append]
        rw [List.map_append, List.sum_append] at hbehind
        omega

end Comparator

end VedDb
