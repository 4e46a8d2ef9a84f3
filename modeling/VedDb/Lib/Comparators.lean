import Mathlib.Tactic.Common

/-!
# Comparators

Comparisons of two values that need not come from an order.  Several of them make one that goes on
to the next where two values tie.  It is a total preorder exactly when no three values clash: two
that differ, and a third one that ties with both.
-/

namespace VedDb

namespace Comparator

variable {α : Type}

/-- What a sort asks of a comparator, on the values it is given. -/
structure TotalPreorderOn (cmp : α → α → Ordering) (S : α → Prop) : Prop where
  refl : ∀ {a}, S a → cmp a a = .eq
  swap : ∀ {a b}, S a → S b → cmp b a = (cmp a b).swap
  trans : ∀ {a b c}, S a → S b → S c → cmp a b ≠ .gt → cmp b c ≠ .gt → cmp a c ≠ .gt

/-- A comparison that does not depend on the side, and that chains where it is strict. -/
structure Lawful (cmp : α → α → Ordering) : Prop where
  swap (a b : α) : cmp b a = (cmp a b).swap
  lt_trans {a b c : α} : cmp a b = .lt → cmp b c = .lt → cmp a c = .lt

/-- Two values that differ, and a third one that ties with both. -/
def Clashes (cmp : α → α → Ordering) (a b c : α) : Prop :=
  cmp a b = .lt ∧ cmp a c = .eq ∧ cmp b c = .eq

/-- The first comparison that decides. -/
def lexicographic : List (α → α → Ordering) → α → α → Ordering
  | [], _, _ => .eq
  | cmp :: cmps, a, b =>
    match cmp a b with
    | .eq => lexicographic cmps a b
    | order => order

/-- One value comes before another one: some comparison says so, and those before it tie. -/
def Before (cmps : List (α → α → Ordering)) (a b : α) : Prop :=
  ∃ first cmp rest, cmps = first ++ cmp :: rest ∧ (∀ c ∈ first, c a b = .eq) ∧ cmp a b = .lt

/-- Three values clash, and the comparisons after that do not put the third one before the second
or after the first. -/
def LexClashes (cmps : List (α → α → Ordering)) (a b c : α) : Prop :=
  ∃ first cmp rest, cmps = first ++ cmp :: rest ∧
    (∀ d ∈ first, d a b = .eq ∧ d a c = .eq ∧ d b c = .eq) ∧ Clashes cmp a b c ∧
      ¬Before rest c b ∧ ¬Before rest a c

variable {cmp : α → α → Ordering} {cmps : List (α → α → Ordering)} {a b c : α} {S : α → Prop}

/-- A comparator does not depend on the side. -/
def Sided (cmp : α → α → Ordering) : Prop := ∀ a b, cmp b a = (cmp a b).swap

theorem Sided.refl (h : Sided cmp) (a : α) : cmp a a = .eq := by
  have hswap := h a a
  cases hself : cmp a a with
  | eq => rfl
  | lt =>
    rw [hself] at hswap
    cases hswap
  | gt =>
    rw [hself] at hswap
    cases hswap

theorem Lawful.refl (h : Lawful cmp) (a : α) : cmp a a = .eq := Sided.refl h.swap a

theorem Lawful.gt_iff (h : Lawful cmp) : cmp a b = .gt ↔ cmp b a = .lt := by
  rw [h.swap a b, Ordering.swap_eq_lt]

theorem Lawful.eq_comm (h : Lawful cmp) : cmp a b = .eq ↔ cmp b a = .eq := by
  rw [h.swap a b, Ordering.swap_eq_eq]

/-- A comparison turned round. -/
theorem Lawful.reverse (h : Lawful cmp) : Lawful fun a b => (cmp a b).swap where
  swap a b := by rw [h.swap a b]
  lt_trans {a b c} hab hbc := by
    rw [Ordering.swap_eq_lt] at hab hbc ⊢
    rw [h.gt_iff] at hab hbc ⊢
    exact h.lt_trans hbc hab

theorem lexicographic_of_eq (h : cmp a b = .eq) :
    lexicographic (cmp :: cmps) a b = lexicographic cmps a b := by
  rw [lexicographic, h]

theorem lexicographic_of_ne (h : cmp a b ≠ .eq) :
    lexicographic (cmp :: cmps) a b = cmp a b := by
  rw [lexicographic]
  cases hcmp : cmp a b with
  | eq => exact absurd hcmp h
  | lt => rfl
  | gt => rfl

theorem lexicographic_singleton (cmp : α → α → Ordering) (a b : α) :
    lexicographic [cmp] a b = cmp a b := by
  rw [lexicographic]
  cases cmp a b with
  | _ => rfl

theorem lexicographic_append {first : List (α → α → Ordering)} (h : ∀ cmp ∈ first, cmp a b = .eq) :
    lexicographic (first ++ cmps) a b = lexicographic cmps a b := by
  induction first with
  | nil => rfl
  | cons cmp first ih =>
    obtain ⟨heq, hfirst⟩ := List.forall_mem_cons.mp h
    rw [List.cons_append, lexicographic_of_eq heq, ih hfirst]

theorem lexicographic_swap (h : ∀ cmp ∈ cmps, Lawful cmp) (a b : α) :
    lexicographic cmps b a = (lexicographic cmps a b).swap := by
  induction cmps with
  | nil => rfl
  | cons cmp cmps ih =>
    obtain ⟨hcmp, hcmps⟩ := List.forall_mem_cons.mp h
    by_cases heq : cmp a b = .eq
    · rw [lexicographic_of_eq heq, lexicographic_of_eq (hcmp.eq_comm.mp heq), ih hcmps]
    · rw [lexicographic_of_ne heq, lexicographic_of_ne (fun h => heq (hcmp.eq_comm.mp h)),
        hcmp.swap]

theorem before_cons (h : cmp a b = .eq) : Before (cmp :: cmps) a b ↔ Before cmps a b := by
  constructor
  · rintro ⟨first, own, rest, hsplit, hfirst, hown⟩
    cases first with
    | nil =>
      rw [(List.cons.inj hsplit).1, hown] at h
      cases h
    | cons head first =>
      obtain ⟨-, htail⟩ := List.cons.inj hsplit
      exact ⟨first, own, rest, htail, (List.forall_mem_cons.mp hfirst).2, hown⟩
  · rintro ⟨first, own, rest, rfl, hfirst, hown⟩
    exact ⟨cmp :: first, own, rest, rfl, List.forall_mem_cons.mpr ⟨h, hfirst⟩, hown⟩

/-- The first comparison that decides says which value comes before. -/
theorem lexicographic_eq_lt_iff : lexicographic cmps a b = .lt ↔ Before cmps a b := by
  induction cmps with
  | nil =>
    refine iff_of_false (by rw [lexicographic]; decide) ?_
    rintro ⟨first, own, rest, hsplit, _⟩
    simp at hsplit
  | cons cmp cmps ih =>
    by_cases heq : cmp a b = .eq
    · rw [lexicographic_of_eq heq, before_cons heq, ih]
    · rw [lexicographic_of_ne heq]
      constructor
      · intro hlt
        exact ⟨[], cmp, cmps, rfl, List.forall_mem_nil _, hlt⟩
      · rintro ⟨first, own, rest, hsplit, hfirst, hown⟩
        cases first with
        | nil =>
          rw [(List.cons.inj hsplit).1]
          exact hown
        | cons head first =>
          rw [(List.cons.inj hsplit).1] at heq
          exact absurd (List.forall_mem_cons.mp hfirst).1 heq

theorem lexicographic_eq_eq_iff :
    lexicographic cmps a b = .eq ↔ ∀ cmp ∈ cmps, cmp a b = .eq := by
  induction cmps with
  | nil => exact iff_of_true rfl (List.forall_mem_nil _)
  | cons cmp cmps ih =>
    rw [List.forall_mem_cons]
    by_cases heq : cmp a b = .eq
    · rw [lexicographic_of_eq heq, ih, and_iff_right heq]
    · rw [lexicographic_of_ne heq]
      exact iff_of_false heq fun h => heq h.1

/-! ## When the comparison by several comparisons is a total preorder -/

theorem LexClashes.cons (heq : cmp a b = .eq ∧ cmp a c = .eq ∧ cmp b c = .eq)
    (h : LexClashes cmps a b c) : LexClashes (cmp :: cmps) a b c := by
  obtain ⟨first, own, rest, rfl, hfirst, hclash⟩ := h
  exact ⟨cmp :: first, own, rest, rfl, List.forall_mem_cons.mpr ⟨heq, hfirst⟩, hclash⟩

/-- A clash at the first comparison that the others do not mend. -/
theorem LexClashes.head (hcmps : ∀ cmp ∈ cmps, Lawful cmp) (h : Clashes cmp a b c)
    (hbc : lexicographic cmps b c ≠ .gt) (hca : lexicographic cmps c a ≠ .gt) :
    LexClashes (cmp :: cmps) a b c := by
  refine ⟨[], cmp, cmps, rfl, List.forall_mem_nil _, h, fun hbefore => ?_, fun hbefore => ?_⟩
  · apply hbc
    rw [lexicographic_swap hcmps c b, lexicographic_eq_lt_iff.mpr hbefore]
    rfl
  · apply hca
    rw [lexicographic_swap hcmps a c, lexicographic_eq_lt_iff.mpr hbefore]
    rfl

theorem ne_gt_of_cons (h : lexicographic (cmp :: cmps) a b ≠ .gt) :
    cmp a b = .lt ∨ cmp a b = .eq ∧ lexicographic cmps a b ≠ .gt := by
  cases hcmp : cmp a b with
  | lt => exact .inl rfl
  | eq =>
    rw [lexicographic_of_eq hcmp] at h
    exact .inr ⟨rfl, h⟩
  | gt =>
    rw [lexicographic_of_ne (by rw [hcmp]; decide)] at h
    exact absurd hcmp h

/-- Three values that come before one another in a circle clash. -/
theorem lexClashes_of_cycle (h : ∀ cmp ∈ cmps, Lawful cmp) {x y z : α}
    (hxy : lexicographic cmps x y ≠ .gt) (hyz : lexicographic cmps y z ≠ .gt)
    (hzx : lexicographic cmps z x ≠ .gt) (hlt : lexicographic cmps x y = .lt) :
    LexClashes cmps x y z ∨ LexClashes cmps y z x ∨ LexClashes cmps z x y := by
  induction cmps with
  | nil => cases hlt
  | cons cmp cmps ih =>
    obtain ⟨hcmp, hcmps⟩ := List.forall_mem_cons.mp h
    -- no two of the three steps are strict at the first comparison: the third would go back
    have htwo {a b c : α} (hab : cmp a b = .lt) (hbc : cmp b c = .lt)
        (hca : cmp c a = .lt ∨ cmp c a = .eq) : False := by
      have hac := hcmp.lt_trans hab hbc
      rw [hcmp.swap a c, hac] at hca
      rcases hca with hca | hca
      · cases hca
      · cases hca
    rcases ne_gt_of_cons hxy with hxy | ⟨hxy, hxy'⟩
    · rcases ne_gt_of_cons hyz with hyz | ⟨hyz, hyz'⟩
      · exact (htwo hxy hyz ((ne_gt_of_cons hzx).imp_right And.left)).elim
      · rcases ne_gt_of_cons hzx with hzx | ⟨hzx, hzx'⟩
        · exact (htwo hzx hxy (.inr hyz)).elim
        · exact .inl (.head hcmps ⟨hxy, hcmp.eq_comm.mp hzx, hyz⟩ hyz' hzx')
    · rw [lexicographic_of_eq hxy] at hlt
      rcases ne_gt_of_cons hyz with hyz | ⟨hyz, hyz'⟩
      · rcases ne_gt_of_cons hzx with hzx | ⟨hzx, hzx'⟩
        · exact (htwo hyz hzx (.inr hxy)).elim
        · exact .inr (.inl (.head hcmps ⟨hyz, hcmp.eq_comm.mp hxy, hzx⟩ hzx' hxy'))
      · rcases ne_gt_of_cons hzx with hzx | ⟨hzx, hzx'⟩
        · exact .inr (.inr (.head hcmps ⟨hzx, hcmp.eq_comm.mp hyz, hxy⟩ hxy' hyz'))
        · have hyx := hcmp.eq_comm.mp hxy
          have hzy := hcmp.eq_comm.mp hyz
          have hxz := hcmp.eq_comm.mp hzx
          exact (ih hcmps hxy' hyz' hzx' hlt).imp (.cons ⟨hxy, hxz, hyz⟩)
            (.imp (.cons ⟨hyz, hyx, hzx⟩) (.cons ⟨hzx, hzy, hxy⟩))

/-- The comparison by several comparisons is a total preorder exactly where no three values
clash. -/
theorem totalPreorderOn_lexicographic_iff (h : ∀ cmp ∈ cmps, Lawful cmp) :
    TotalPreorderOn (lexicographic cmps) S ↔
      ∀ a b c, S a → S b → S c → ¬LexClashes cmps a b c := by
  constructor
  · intro hpre a b c ha hb hc hclash
    obtain ⟨first, cmp, rest, rfl, hfirst, ⟨hab, hac, hbc⟩, hcb, hac'⟩ := hclash
    have hrest : ∀ cmp ∈ rest, Lawful cmp := fun d hd =>
      h d (List.mem_append_right _ (List.mem_cons_of_mem _ hd))
    have hcmp : Lawful cmp := h cmp (List.mem_append_right _ List.mem_cons_self)
    have hlt : lexicographic (first ++ cmp :: rest) a b = .lt :=
      lexicographic_eq_lt_iff.mpr ⟨first, cmp, rest, rfl, fun d hd => (hfirst d hd).1, hab⟩
    have hle : lexicographic (first ++ cmp :: rest) b c ≠ .gt := by
      rw [lexicographic_append fun d hd => (hfirst d hd).2.2, lexicographic_of_eq hbc]
      intro hgt
      apply hcb
      rw [← lexicographic_eq_lt_iff, lexicographic_swap hrest b c, hgt]
      rfl
    have hle' : lexicographic (first ++ cmp :: rest) c a ≠ .gt := by
      rw [lexicographic_swap h a c, lexicographic_append fun d hd => (hfirst d hd).2.1,
        lexicographic_of_eq hac]
      intro hgt
      exact hac' (lexicographic_eq_lt_iff.mp (Ordering.swap_eq_gt.mp hgt))
    -- from `b` to `c` to `a`, against `a` before `b`
    apply hpre.trans hb hc ha hle hle'
    rw [lexicographic_swap h a b, hlt]
    rfl
  · intro hnone
    refine ⟨fun {a} _ => ?_, fun {a b} _ _ => lexicographic_swap h a b, ?_⟩
    · rw [lexicographic_eq_eq_iff]
      exact fun cmp hcmp => (h cmp hcmp).refl a
    · intro a b c ha hb hc hab hbc hac
      have hca : lexicographic cmps c a = .lt := by
        rw [lexicographic_swap h a c, hac]
        rfl
      have hle : lexicographic cmps c a ≠ .gt := by
        rw [hca]
        decide
      rcases lexClashes_of_cycle h hle hab hbc hca with hclash | hclash | hclash
      · exact hnone _ _ _ hc ha hb hclash
      · exact hnone _ _ _ ha hb hc hclash
      · exact hnone _ _ _ hb hc ha hclash

end Comparator

end VedDb
