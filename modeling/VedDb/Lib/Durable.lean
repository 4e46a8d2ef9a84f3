import Mathlib.Tactic.Common

/-!
# Programs that can be cut off

A program over a state reads it, changes it and may stop early.  Some changes are persisted effects:
before any of them the program can be cut off, by an error it returns or by a crash.  A cut is given
as the number of effects that still go through, so a statement about every cut is a statement about
every point between two effects.
-/

namespace Durable

universe u v w

inductive Fault where
  | error
  | crash
  deriving DecidableEq

/-- How many more effects go through and what then happens; `none` is an undisturbed run. -/
abbrev Cut := Option (Nat × Fault)

namespace Cut

/-- The cut that lets `n` effects more through. -/
def plus : Cut → Nat → Cut
  | none, _ => none
  | some (k, fault), n => some (k + n, fault)

/-- The cut lets `n` effects through. -/
def Allows : Cut → Nat → Prop
  | none, _ => True
  | some (k, _), n => n ≤ k

instance (cut : Cut) (n : Nat) : Decidable (cut.Allows n) :=
  match cut with
  | none => isTrue trivial
  | some (k, _) => inferInstanceAs (Decidable (n ≤ k))

theorem plus_plus (cut : Cut) (n m : Nat) : (cut.plus n).plus m = cut.plus (n + m) := by
  rcases cut with - | ⟨k, fault⟩
  · rfl
  · show some (k + n + m, fault) = some (k + (n + m), fault)
    rw [Nat.add_assoc]

theorem allows_plus_add {cut : Cut} {n m : Nat} :
    (cut.plus n).Allows (n + m) ↔ cut.Allows m := by
  rcases cut with - | ⟨k, fault⟩
  · exact Iff.rfl
  · show n + m ≤ k + n ↔ m ≤ k
    omega

theorem allows_plus {cut : Cut} {n : Nat} : (cut.plus n).Allows n := by
  rcases cut with - | ⟨k, fault⟩
  · trivial
  · show n ≤ k + n
    omega

-- An undisturbed cut lets everything through.
theorem allows_of_plus_eq_none {cut : Cut} {n : Nat} (h : cut.plus n = none) (m : Nat) :
    cut.Allows m := by
  rcases cut with - | ⟨k, fault⟩
  · trivial
  · cases h

theorem Allows.mono {cut : Cut} {n m : Nat} (h : cut.Allows m) (hle : n ≤ m) : cut.Allows n := by
  rcases cut with - | ⟨k, fault⟩
  · trivial
  · exact Nat.le_trans hle h

end Cut

inductive Outcome (ε : Type u) (α : Type v) where
  | ok (value : α)
  | error (e : ε)
  | crashed
  deriving DecidableEq

/-- A program with its outcome, what is left of the cut, and the state it leaves behind. -/
def Program (σ : Type w) (ε : Type u) (α : Type v) :=
  Cut → σ → Outcome ε α × Cut × σ

variable {σ : Type w} {ε : Type u} {α β : Type v}

namespace Program

def run (m : Program σ ε α) (cut : Cut) (s : σ) : Outcome ε α × Cut × σ := m cut s

/-- The state a program leaves behind, whatever its outcome. -/
def final (m : Program σ ε α) (cut : Cut) (s : σ) : σ := (m.run cut s).2.2

def outcome (m : Program σ ε α) (cut : Cut) (s : σ) : Outcome ε α := (m.run cut s).1

protected def pure (a : α) : Program σ ε α := fun cut s => (.ok a, cut, s)

protected def bind (m : Program σ ε α) (f : α → Program σ ε β) : Program σ ε β := fun cut s =>
  match m.run cut s with
  | (.ok a, cut, s) => f a cut s
  | (.error e, cut, s) => (.error e, cut, s)
  | (.crashed, cut, s) => (.crashed, cut, s)

instance : Monad (Program σ ε) where
  pure := Program.pure
  bind := Program.bind

/-- Return an error. -/
def fail (e : ε) : Program σ ε α := fun cut s => (.error e, cut, s)

/-- Stop at once, as a panic does. -/
def panic : Program σ ε α := fun cut s => (.crashed, cut, s)

def read (f : σ → α) : Program σ ε α := fun cut s => (.ok (f s), cut, s)

/-- Change what is held in memory only; this cannot be cut off. -/
def modify (f : σ → σ) : Program σ ε PUnit := fun cut s => (.ok ⟨⟩, cut, f s)

def ofExcept : Except ε α → Program σ ε α
  | .ok a => Program.pure a
  | .error e => fail e

/-- Change persisted state; a cut at this point leaves it as it was. -/
def effect (e : ε) (f : σ → σ) : Program σ ε PUnit := fun cut s =>
  match cut with
  | none => (.ok ⟨⟩, none, f s)
  | some (n + 1, fault) => (.ok ⟨⟩, some (n, fault), f s)
  | some (0, .error) => (.error e, cut, s)
  | some (0, .crash) => (.crashed, cut, s)

/-- Run a program on a part of a larger state. -/
def zoom {τ : Type*} (get : τ → σ) (set : τ → σ → τ) (m : Program σ ε α) : Program τ ε α :=
  fun cut t =>
    match m.run cut (get t) with
    | (o, cut', s) => (o, cut', set t s)

/-! ## Running -/

theorem run_bind (m : Program σ ε α) (f : α → Program σ ε β) (cut : Cut) (s : σ) :
    (m >>= f).run cut s =
      match m.run cut s with
      | (.ok a, cut, s) => (f a).run cut s
      | (.error e, cut, s) => (.error e, cut, s)
      | (.crashed, cut, s) => (.crashed, cut, s) := rfl

/-- Sequencing is associative, so a loop over an appended list is two loops. -/
instance : LawfulMonad (Program σ ε) :=
  LawfulMonad.mk' (Program σ ε)
    (by
      intro α m
      funext cut s
      show (m >>= fun a => pure a).run cut s = m.run cut s
      rw [run_bind]
      rcases m.run cut s with ⟨- | - | -, cut', s'⟩ <;> rfl)
    (by
      intro α β a f
      rfl)
    (by
      intro α β γ m f g
      funext cut s
      show ((m >>= f) >>= g).run cut s = (m >>= fun a => f a >>= g).run cut s
      rw [run_bind, run_bind, run_bind]
      rcases m.run cut s with ⟨- | - | -, cut', s'⟩ <;> rfl)

@[simp] theorem run_read (f : σ → α) (cut : Cut) (s : σ) :
    (read f : Program σ ε α).run cut s = (.ok (f s), cut, s) := rfl

-- What is returned at the end makes no difference to the final state.
theorem final_bind_pure (m : Program σ ε α) (b : β) (cut : Cut) (s : σ) :
    (m >>= fun _ => pure b).final cut s = m.final cut s := by
  rw [final, run_bind, final]
  rcases m.run cut s with ⟨- | - | -, cut', s'⟩ <;> rfl

/-! ## Pre- and postconditions -/

/-- From every cut and state with `P`, the program ends with `Q` when it returns a value and with
`R` when it stops early.  The assertions see the cut, so they can count effects. -/
def Spec (P : Cut → σ → Prop) (m : Program σ ε α) (Q : α → Cut → σ → Prop)
    (R : Cut → σ → Prop) : Prop :=
  ∀ cut s, P cut s →
    match m.run cut s with
    | (.ok a, cut', s') => Q a cut' s'
    | (.error _, cut', s') => R cut' s'
    | (.crashed, cut', s') => R cut' s'

variable {P P' : Cut → σ → Prop} {Q : α → Cut → σ → Prop} {Q' : β → Cut → σ → Prop}
  {R : Cut → σ → Prop}

theorem Spec.pure {a : α} (h : ∀ cut s, P cut s → Q a cut s) :
    Spec P (Pure.pure a : Program σ ε α) Q R :=
  h

theorem Spec.bind {m : Program σ ε α} {f : α → Program σ ε β} (hm : Spec P m Q R)
    (hf : ∀ a, Spec (Q a) (f a) Q' R) : Spec P (m >>= f) Q' R := by
  intro cut s hs
  have h := hm cut s hs
  rw [run_bind]
  rcases hrun : m.run cut s with ⟨o, cut', s'⟩
  rw [hrun] at h
  cases o with
  | ok a => exact hf a cut' s' h
  | error e => exact h
  | crashed => exact h

theorem Spec.fail {e : ε} (h : ∀ cut s, P cut s → R cut s) :
    Spec P (fail e : Program σ ε α) Q R :=
  h

theorem Spec.panic (h : ∀ cut s, P cut s → R cut s) :
    Spec P (panic : Program σ ε α) Q R :=
  h

-- What is read is a fact about the state the rest starts from.
theorem Spec.read_bind {f : σ → α} {g : α → Program σ ε β}
    (h : ∀ s₀, Spec (fun cut s => s = s₀ ∧ P cut s) (g (f s₀)) Q' R) :
    Spec P (Program.read f >>= g) Q' R :=
  fun cut s hs => h s cut s ⟨rfl, hs⟩

-- Reading where it makes no difference what is read.
theorem Spec.read_bind_any {f : σ → α} {g : α → Program σ ε β} (h : ∀ a, Spec P (g a) Q' R) :
    Spec P (Program.read f >>= g) Q' R :=
  fun cut s hs => h (f s) cut s hs

-- Reading where the precondition already says what is read.
theorem Spec.read_bind_of {f : σ → α} {g : α → Program σ ε β} {a : α}
    (ha : ∀ cut s, P cut s → f s = a) (h : Spec P (g a) Q' R) :
    Spec P (Program.read f >>= g) Q' R := by
  intro cut s hs
  rw [run_bind, run_read, ha cut s hs]
  exact h cut s hs

theorem Spec.modify {f : σ → σ} {Q : PUnit → Cut → σ → Prop}
    (h : ∀ cut s, P cut s → Q ⟨⟩ cut (f s)) : Spec P (modify f : Program σ ε PUnit) Q R :=
  h

theorem Spec.ofExcept {x : Except ε α} (hok : ∀ a, x = .ok a → ∀ cut s, P cut s → Q a cut s)
    (herr : ∀ cut s, P cut s → R cut s) : Spec P (ofExcept x : Program σ ε α) Q R := by
  cases x with
  | ok a => exact hok a rfl
  | error e => exact herr

/-- An effect uses up one of the effects the cut lets through, or is where the cut falls. -/
theorem Spec.effect {e : ε} {f : σ → σ} {Q : PUnit → Cut → σ → Prop}
    (h : ∀ cut s, P (cut.plus 1) s → Q ⟨⟩ cut (f s))
    (hstop : ∀ cut s, P cut s → ¬ cut.Allows 1 → R cut s) :
    Spec P (effect e f : Program σ ε PUnit) Q R := by
  intro cut s hs
  have hnone : ∀ fault, ¬ Cut.Allows (some (0, fault)) 1 := fun _ => Nat.not_succ_le_zero 0
  rcases cut with - | ⟨- | n, - | -⟩
  · exact h none s hs
  · exact hstop _ s hs (hnone _)
  · exact hstop _ s hs (hnone _)
  · exact h (some (n, .error)) s hs
  · exact h (some (n, .crash)) s hs

theorem Spec.weaken {m : Program σ ε α} {Q₁ : α → Cut → σ → Prop} {R₁ : Cut → σ → Prop}
    (h : Spec P m Q R) (hP : ∀ cut s, P' cut s → P cut s)
    (hQ : ∀ a cut s, Q a cut s → Q₁ a cut s) (hR : ∀ cut s, R cut s → R₁ cut s) :
    Spec P' m Q₁ R₁ := by
  intro cut s hs
  have hrun := h cut s (hP cut s hs)
  rcases hm : m.run cut s with ⟨o, cut', s'⟩
  rw [hm] at hrun
  cases o with
  | ok a => exact hQ a cut' s' hrun
  | error e => exact hR cut' s' hrun
  | crashed => exact hR cut' s' hrun

theorem Spec.imp {m : Program σ ε α} {Q₁ : α → Cut → σ → Prop} {R₁ : Cut → σ → Prop}
    (h : Spec P m Q R) (hQ : ∀ a cut s, Q a cut s → Q₁ a cut s)
    (hR : ∀ cut s, R cut s → R₁ cut s) : Spec P m Q₁ R₁ :=
  h.weaken (fun _ _ hs => hs) hQ hR

-- Nothing is said about the run.
theorem Spec.trivial {m : Program σ ε α} : Spec P m (fun _ _ _ => True) (fun _ _ => True) := by
  intro cut s _
  rcases m.run cut s with ⟨- | - | -, cut', s'⟩ <;> exact True.intro

-- A witness in the precondition is given before the program runs.
theorem Spec.of_exists {ι : Sort*} {m : Program σ ε α} {P : ι → Cut → σ → Prop}
    (h : ∀ i, Spec (P i) m Q R) : Spec (fun cut s => ∃ i, P i cut s) m Q R := by
  rintro cut s ⟨i, hs⟩
  exact h i cut s hs

theorem Spec.of_and {p : Prop} {m : Program σ ε α} (h : p → Spec P m Q R) :
    Spec (fun cut s => p ∧ P cut s) m Q R := by
  rintro cut s ⟨hp, hs⟩
  exact h hp cut s hs

-- A program that runs as another one does, from the state the precondition fixes.
theorem Spec.of_run_eq {m m' : Program σ ε α} {s₀ : σ} (h : Spec P m' Q R)
    (hP : ∀ cut s, P cut s → s = s₀) (hrun : ∀ cut, m.run cut s₀ = m'.run cut s₀) :
    Spec P m Q R := by
  intro cut s hs
  have hrun' := h cut s hs
  rw [hP cut s hs] at hrun' ⊢
  rw [hrun cut]
  exact hrun'

-- A fact that the precondition contains holds for the whole proof.
theorem Spec.of_pre {p : Prop} {m : Program σ ε α} (hp : ∀ cut s, P cut s → p)
    (h : p → Spec P m Q R) : Spec P m Q R :=
  fun cut s hs => h (hp cut s hs) cut s hs

theorem Spec.zoom {τ : Type*} {get : τ → σ} {set : τ → σ → τ} {m : Program σ ε α}
    {P : Cut → τ → Prop} {Q : α → Cut → τ → Prop} {R : Cut → τ → Prop}
    (h : ∀ t, Spec (fun cut s => s = get t ∧ P cut t) m (fun a cut s => Q a cut (set t s))
      (fun cut s => R cut (set t s))) :
    Spec P (Program.zoom get set m) Q R := by
  intro cut t ht
  have hrun := h t cut (get t) ⟨rfl, ht⟩
  unfold Program.run Program.zoom
  rcases hm : m.run cut (get t) with ⟨o, cut', s⟩
  rw [hm] at hrun
  cases o with
  | ok a => exact hrun
  | error e => exact hrun
  | crashed => exact hrun

/-- What a specification says about one run. -/
theorem Spec.outcome_cases {m : Program σ ε α} (h : Spec P m Q R) {cut : Cut} {s : σ}
    (hs : P cut s) :
    (∃ a cut', m.outcome cut s = .ok a ∧ Q a cut' (m.final cut s)) ∨
      ((∀ a, m.outcome cut s ≠ .ok a) ∧ ∃ cut', R cut' (m.final cut s)) := by
  have hrun := h cut s hs
  unfold Program.final Program.outcome
  rcases hm : m.run cut s with ⟨o, cut', s'⟩
  rw [hm] at hrun
  cases o with
  | ok a => exact .inl ⟨a, cut', rfl, hrun⟩
  | error e => exact .inr ⟨fun _ h => (nomatch h), cut', hrun⟩
  | crashed => exact .inr ⟨fun _ h => (nomatch h), cut', hrun⟩

-- What is true however the program ends is true of the final state.
theorem Spec.final {m : Program σ ε α} {R : σ → Prop}
    (h : Spec P m (fun _ _ => R) (fun _ => R)) {cut : Cut} {s : σ} (hs : P cut s) :
    R (m.final cut s) := by
  rcases h.outcome_cases hs with ⟨_, _, -, hR⟩ | ⟨-, _, hR⟩
  · exact hR
  · exact hR

-- What a specification says about a run that returned.
theorem Spec.of_ok {m : Program σ ε α} (h : Spec P m Q R) {cut : Cut} {s : σ} (hs : P cut s)
    {a : α} (hok : m.outcome cut s = .ok a) : ∃ cut', Q a cut' (m.final cut s) := by
  rcases h.outcome_cases hs with ⟨a', cut', hok', hQ⟩ | ⟨hnot, -⟩
  · rw [hok] at hok'
    cases hok'
    exact ⟨cut', hQ⟩
  · exact absurd hok (hnot a)

end Program

end Durable
