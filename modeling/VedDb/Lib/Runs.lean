import Mathlib.Tactic.Common

/-!
# Runs

A run folds a step function over a list of operations.  `MeetsAlong` says of a run that each of its
operations meets a condition, which may look at the state the operation is applied to.
-/

namespace VedDb

/-- A condition that holds at every step of a run. -/
def MeetsAlong {S Op : Type} (step : S → Op → S) (P : S → Op → Prop) : S → List Op → Prop
  | _, [] => True
  | s, op :: ops => P s op ∧ MeetsAlong step P (step s op) ops

instance MeetsAlong.decidable {S Op : Type} {step : S → Op → S} {P : S → Op → Prop}
    [∀ s op, Decidable (P s op)] : (s : S) → (ops : List Op) → Decidable (MeetsAlong step P s ops)
  | _, [] => .isTrue trivial
  | s, op :: ops =>
    have : Decidable (MeetsAlong step P (step s op) ops) :=
      MeetsAlong.decidable (step s op) ops
    inferInstanceAs (Decidable (_ ∧ _))

section

variable {S Op : Type} {step : S → Op → S} {P Q : S → Op → Prop} {s : S} {ops : List Op}

theorem MeetsAlong.take (h : MeetsAlong step P s ops) (n : Nat) :
    MeetsAlong step P s (ops.take n) := by
  induction n generalizing s ops with
  | zero => exact trivial
  | succ n ih =>
    cases ops with
    | nil => exact trivial
    | cons op ops => exact ⟨h.1, ih h.2⟩

theorem meetsAlong_of_forall (h : ∀ s, ∀ op ∈ ops, P s op) : MeetsAlong step P s ops := by
  induction ops generalizing s with
  | nil => exact trivial
  | cons op ops ih =>
    exact ⟨h s op List.mem_cons_self, ih fun s other hother => h s other (.tail op hother)⟩

theorem meetsAlong_append {more : List Op} :
    MeetsAlong step P s (ops ++ more) ↔
      MeetsAlong step P s ops ∧ MeetsAlong step P (ops.foldl step s) more := by
  induction ops generalizing s with
  | nil => exact (iff_of_eq (true_and _)).symm
  | cons op ops ih =>
    show P s op ∧ MeetsAlong step P (step s op) (ops ++ more) ↔
      (P s op ∧ MeetsAlong step P (step s op) ops) ∧ _
    rw [ih, and_assoc]
    rfl

theorem meetsAlong_and :
    MeetsAlong step (fun s op => P s op ∧ Q s op) s ops ↔
      MeetsAlong step P s ops ∧ MeetsAlong step Q s ops := by
  induction ops generalizing s with
  | nil => exact (iff_of_eq (true_and True)).symm
  | cons op ops ih =>
    show (P s op ∧ Q s op) ∧ _ ↔ (P s op ∧ _) ∧ Q s op ∧ _
    rw [ih, and_and_and_comm]

/-- Two conditions that agree at every step of a run are met by it alike. -/
theorem MeetsAlong.congr (h : MeetsAlong step (fun s op => Q s op ↔ P s op) s ops) :
    MeetsAlong step Q s ops ↔ MeetsAlong step P s ops := by
  induction ops generalizing s with
  | nil => exact Iff.rfl
  | cons op ops ih => exact and_congr h.1 (ih h.2)

/-! ## Invariants -/

variable {I : S → Prop} (hstep : ∀ {s op}, I s → P s op → I (step s op))

include hstep

/-- What every step keeps, the run keeps. -/
theorem MeetsAlong.invariant (hs : I s) (h : MeetsAlong step P s ops) : I (ops.foldl step s) := by
  induction ops generalizing s with
  | nil => exact hs
  | cons op ops ih => exact ih (hstep hs h.1) h.2

/-- What the invariant and the condition of a step imply holds at every step. -/
theorem MeetsAlong.imp (himp : ∀ {s op}, I s → P s op → Q s op) (hs : I s)
    (h : MeetsAlong step P s ops) : MeetsAlong step Q s ops := by
  induction ops generalizing s with
  | nil => exact trivial
  | cons op ops ih => exact ⟨himp hs h.1, ih (hstep hs h.1) h.2⟩

omit hstep in
/-- What the invariant and the condition of a step imply, of the operations of the run. -/
theorem MeetsAlong.imp_mem (hstep : ∀ {s op}, op ∈ ops → I s → P s op → I (step s op))
    (himp : ∀ {s op}, op ∈ ops → I s → P s op → Q s op) (hs : I s) (h : MeetsAlong step P s ops) :
    MeetsAlong step Q s ops := by
  induction ops generalizing s with
  | nil => exact trivial
  | cons op ops ih =>
    refine ⟨himp List.mem_cons_self hs h.1, ?_⟩
    exact ih (fun hmem => hstep (List.mem_cons_of_mem _ hmem))
      (fun hmem => himp (List.mem_cons_of_mem _ hmem)) (hstep List.mem_cons_self hs h.1) h.2

omit hstep in
/-- Two conditions that agree where the invariant holds are met by the same runs. -/
theorem meetsAlong_iff (hstep : ∀ {s op}, op ∈ ops → I s → P s op → I (step s op))
    (hiff : ∀ {s op}, op ∈ ops → I s → (Q s op ↔ P s op)) (hs : I s) :
    MeetsAlong step Q s ops ↔ MeetsAlong step P s ops := by
  induction ops generalizing s with
  | nil => exact Iff.rfl
  | cons op ops ih =>
    have hrest (h : P s op) : MeetsAlong step Q (step s op) ops ↔
        MeetsAlong step P (step s op) ops :=
      ih (fun hmem => hstep (List.mem_cons_of_mem _ hmem))
        (fun hmem => hiff (List.mem_cons_of_mem _ hmem)) (hstep List.mem_cons_self hs h)
    show Q s op ∧ _ ↔ P s op ∧ _
    rw [hiff List.mem_cons_self hs]
    exact and_congr_right hrest

end

/-- Where the operations of a run keep what holds exactly under their condition, the run keeps it
exactly when all of its steps meet theirs. -/
theorem forall_take_iff_meetsAlong_mem {S Op : Type} {step : S → Op → S} {P : S → Op → Prop}
    (I J : S → Prop) {ops : List Op} (hJ : ∀ {s op}, op ∈ ops → J s → J (step s op))
    (hstep : ∀ {s op}, op ∈ ops → J s → I s → (I (step s op) ↔ P s op)) {s : S} (hs : J s)
    (hI : I s) : (∀ n, I ((ops.take n).foldl step s)) ↔ MeetsAlong step P s ops := by
  induction ops generalizing s with
  | nil => simp [MeetsAlong, hI]
  | cons op ops ih =>
    have hhead := hstep List.mem_cons_self hs hI
    have hrest (hone : I (step s op)) := ih (fun hmem => hJ (List.mem_cons_of_mem _ hmem))
      (fun hmem => hstep (List.mem_cons_of_mem _ hmem)) (hJ List.mem_cons_self hs) hone
    constructor
    · intro h
      have hone : I (step s op) := h 1
      refine ⟨hhead.mp hone, (hrest hone).mp fun n => ?_⟩
      exact h (n + 1)
    · intro ⟨hone, hops⟩ n
      cases n with
      | zero => exact hI
      | succ n => exact (hrest (hhead.mpr hone)).mpr hops n

/-- Where a step keeps what holds exactly under its condition, a run keeps it exactly when all of
its steps meet theirs. -/
theorem forall_take_iff_meetsAlong {S Op : Type} {step : S → Op → S} {P : S → Op → Prop}
    (I J : S → Prop) (hJ : ∀ {s} (op), J s → J (step s op))
    (hstep : ∀ {s op}, J s → I s → (I (step s op) ↔ P s op)) {s : S} {ops : List Op} (hs : J s)
    (hI : I s) : (∀ n, I ((ops.take n).foldl step s)) ↔ MeetsAlong step P s ops :=
  forall_take_iff_meetsAlong_mem I J (fun _ => hJ _) (fun _ => hstep) hs hI

/-! ## Two step functions -/

-- Two runs agree after every prefix exactly when their steps agree along one of them.
theorem foldl_take_eq_iff {S Op : Type} {f g : S → Op → S} {P : S → Op → Prop}
    (hstep : ∀ s op, f s op = g s op ↔ P s op) (ops : List Op) (s : S) :
    (∀ n, (ops.take n).foldl f s = (ops.take n).foldl g s) ↔ MeetsAlong g P s ops := by
  induction ops generalizing s with
  | nil => simp [MeetsAlong]
  | cons op ops ih =>
    rw [MeetsAlong, ← ih, ← hstep]
    constructor
    · intro h
      have hone : f s op = g s op := h 1
      refine ⟨hone, fun n => ?_⟩
      have hnext := h (n + 1)
      rw [List.take_succ_cons, List.foldl_cons, List.foldl_cons, hone] at hnext
      exact hnext
    · intro ⟨hone, hrest⟩ n
      cases n with
      | zero => rfl
      | succ n =>
        rw [List.take_succ_cons, List.foldl_cons, List.foldl_cons, hone]
        exact hrest n

end VedDb
