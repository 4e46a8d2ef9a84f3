import Mathlib.Data.List.NodupEquivFin
import Mathlib.Data.List.Range
import Mathlib.Logic.Function.Basic

/-!
# Tickets

A counter hands out its values, each to the party that reads it and adds one in the same step.  A
party holds one of them at a time and gives it up once it is done with it.
-/

namespace VedDb

variable {τ : Type}

/-- Tickets below `next` are handed out: each has one holder, or is spent, and is spent once. -/
structure Tickets (next : Nat) (holds : τ → Option Nat) (spent : List Nat) : Prop where
  issued : ∀ t p, holds t = some p → p < next
  one : ∀ t u p, holds t = some p → holds u = some p → t = u
  mem_spent : ∀ p, p ∈ spent ↔ p < next ∧ ∀ t, holds t ≠ some p
  nodup : spent.Nodup

namespace Tickets

variable {next : Nat} {holds : τ → Option Nat} {spent : List Nat}

theorem start : Tickets 0 (fun _ : τ => none) [] where
  issued := nofun
  one := nofun
  mem_spent := by simp
  nodup := List.nodup_nil

theorem ne_of_ne (h : Tickets next holds spent) {t u : τ} {p q : Nat} (hne : t ≠ u)
    (ht : holds t = some p) (hu : holds u = some q) : p ≠ q := by
  intro heq
  subst heq
  exact hne (h.one t u p ht hu)

theorem notMem_spent (h : Tickets next holds spent) {t : τ} {p : Nat} (ht : holds t = some p) :
    p ∉ spent :=
  fun hmem => ((h.mem_spent p).mp hmem).2 t ht

theorem next_notMem_spent (h : Tickets next holds spent) : next ∉ spent :=
  fun hmem => Nat.lt_irrefl next ((h.mem_spent next).mp hmem).1

theorem length_spent (h : Tickets next holds spent) (hfree : ∀ t, holds t = none) :
    spent.length = next := by
  have hperm : spent.Perm (List.range next) := by
    apply (List.perm_ext_iff_of_nodup h.nodup List.nodup_range).mpr
    intro p
    rw [h.mem_spent, List.mem_range]
    refine and_iff_left ?_
    intro t
    rw [hfree t]
    nofun
  rw [hperm.length_eq, List.length_range]

variable [DecidableEq τ]

theorem take (h : Tickets next holds spent) (t : τ) (hfree : holds t = none) :
    Tickets (next + 1) (Function.update holds t (some next)) spent where
  issued := by
    intro u p hp
    by_cases hu : u = t
    · subst hu
      rw [Function.update_self] at hp
      cases hp
      exact Nat.lt_succ_self _
    · rw [Function.update_of_ne hu] at hp
      exact Nat.lt_succ_of_lt (h.issued u p hp)
  one := by
    intro u v p hu hv
    have hnext (w : τ) (hw : holds w = some next) : False :=
      Nat.lt_irrefl next (h.issued w next hw)
    rw [Function.update_apply] at hu hv
    split at hu <;> split at hv
    next hut hvt => rw [hut, hvt]
    next =>
      cases hu
      exact (hnext v hv).elim
    next =>
      cases hv
      exact (hnext u hu).elim
    next => exact h.one u v p hu hv
  mem_spent := by
    intro p
    rw [h.mem_spent]
    constructor
    · intro ⟨hlt, hall⟩
      refine ⟨Nat.lt_succ_of_lt hlt, fun u hu => ?_⟩
      rw [Function.update_apply] at hu
      split at hu
      next =>
        cases hu
        exact Nat.lt_irrefl next hlt
      next => exact hall u hu
    · intro ⟨hlt, hall⟩
      have hne : p ≠ next := by
        intro heq
        have hself := hall t
        rw [Function.update_self, heq] at hself
        exact hself rfl
      refine ⟨by omega, fun u hu => ?_⟩
      have hut : u ≠ t := by
        intro heq
        rw [heq, hfree] at hu
        cases hu
      exact hall u (by rw [Function.update_of_ne hut]; exact hu)
  nodup := h.nodup

theorem spend (h : Tickets next holds spent) {t : τ} {p : Nat} (ht : holds t = some p) :
    Tickets next (Function.update holds t none) (spent ++ [p]) where
  issued := by
    intro u q hq
    rw [Function.update_apply] at hq
    split at hq
    next => cases hq
    next => exact h.issued u q hq
  one := by
    intro u v q hu hv
    rw [Function.update_apply] at hu hv
    split at hu <;> split at hv
    next => cases hu
    next => cases hu
    next => cases hv
    next => exact h.one u v q hu hv
  mem_spent := by
    intro q
    rw [List.mem_append, List.mem_singleton, h.mem_spent]
    constructor
    · rintro (⟨hlt, hall⟩ | rfl)
      · refine ⟨hlt, fun u hu => ?_⟩
        rw [Function.update_apply] at hu
        split at hu
        next => cases hu
        next => exact hall u hu
      · refine ⟨h.issued t q ht, fun u hu => ?_⟩
        rw [Function.update_apply] at hu
        split at hu
        next => cases hu
        next hne => exact hne (h.one u t q hu ht)
    · intro ⟨hlt, hall⟩
      by_cases hq : q = p
      · exact .inr hq
      · refine .inl ⟨hlt, fun u hu => ?_⟩
        have hut : u ≠ t := by
          intro heq
          rw [heq, ht] at hu
          exact hq (Option.some.inj hu).symm
        exact hall u (by rw [Function.update_of_ne hut]; exact hu)
  nodup := by
    rw [List.nodup_append]
    refine ⟨h.nodup, List.nodup_singleton _, fun a ha b hb heq => ?_⟩
    rw [List.mem_singleton] at hb
    rw [heq, hb] at ha
    exact h.notMem_spent ht ha

end Tickets

end VedDb
