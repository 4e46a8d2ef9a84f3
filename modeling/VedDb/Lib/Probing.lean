import Mathlib.Dynamics.PeriodicPts.Defs
import Mathlib.Tactic.Common

/-!
# Linear probing

Open addressing over any kind of position: `next` is the position probed after another one and
`home` the position at which the search for a key starts.  A table is well formed when no search for
a key it holds meets an empty position first, and no two positions hold the same key.
-/

namespace VedDb

namespace Probing

variable {ι κ : Type}

/-! ## The search -/

/-- The first position from `i` on at which the search stops, among the next `fuel` ones. -/
def search (next : ι → ι) (stop : ι → Bool) : Nat → ι → Option ι
  | 0, _ => none
  | fuel + 1, i => if stop i then some i else search next stop fuel (next i)

section

variable {next : ι → ι} {stop : ι → Bool} {fuel : Nat} {i j : ι}

theorem search_eq_none_iff :
    search next stop fuel i = none ↔ ∀ d < fuel, stop (next^[d] i) = false := by
  induction fuel generalizing i with
  | zero => simp [search]
  | succ fuel ih =>
    rw [search]
    split
    · rename_i hstop
      simp only [reduceCtorEq, false_iff]
      intro h
      have hfalse : stop i = false := h 0 (by omega)
      rw [hstop] at hfalse
      cases hfalse
    · rename_i hstop
      rw [ih]
      constructor
      · intro h d hd
        cases d with
        | zero => exact Bool.eq_false_iff.mpr hstop
        | succ d => exact h d (by omega)
      · intro h d hd
        exact h (d + 1) (by omega)

theorem search_spec (h : search next stop fuel i = some j) :
    ∃ d, next^[d] i = j ∧ stop j = true ∧ ∀ e < d, stop (next^[e] i) = false := by
  induction fuel generalizing i with
  | zero => cases h
  | succ fuel ih =>
    rw [search] at h
    split at h
    · rename_i hstop
      cases h
      exact ⟨0, rfl, hstop, fun e he => by omega⟩
    · rename_i hstop
      have ⟨d, hd, hj, hbefore⟩ := ih h
      refine ⟨d + 1, hd, hj, fun e he => ?_⟩
      cases e with
      | zero => exact Bool.eq_false_iff.mpr hstop
      | succ e => exact hbefore e (by omega)

/-- On a cycle of `n` positions a search that has not stopped after `n` of them never does. -/
theorem search_eq_none_of_cycle {n : Nat} (hn : 0 < n) (hcycle : next^[n] i = i)
    (h : search next stop n i = none) (fuel : Nat) : search next stop fuel i = none := by
  rw [search_eq_none_iff] at h ⊢
  intro d _
  have hmod : next^[d % n] i = next^[d] i := Function.IsPeriodicPt.iterate_mod_apply hcycle d
  rw [← hmod]
  exact h _ (Nat.mod_lt d hn)

end

/-! ## Tables -/

inductive Slot (κ : Type) where
  | empty
  | deleted
  | full (key : κ)
deriving DecidableEq

/-- The positions at which the search for a key stops. -/
def stops [DecidableEq κ] (slots : ι → Slot κ) (key : κ) (i : ι) : Bool :=
  slots i = .empty || slots i = .full key

structure Chained (next : ι → ι) (home : κ → ι) (slots : ι → Slot κ) : Prop where
  reached : ∀ {i key}, slots i = .full key →
    ∃ d, next^[d] (home key) = i ∧ ∀ e < d, slots (next^[e] (home key)) ≠ .empty
  distinct : ∀ {i j key}, slots i = .full key → slots j = .full key → i = j

section

variable {next : ι → ι} {home : κ → ι} {slots : ι → Slot κ} {key : κ} {fuel : Nat} {i : ι}

theorem chained_empty : Chained next home fun _ => (.empty : Slot κ) :=
  { reached := fun h => (nomatch h), distinct := fun h => (nomatch h) }

variable [DecidableEq κ]

theorem stops_eq_true : stops slots key i = true ↔ slots i = .empty ∨ slots i = .full key := by
  simp [stops]

theorem stops_eq_false : stops slots key i = false ↔ slots i ≠ .empty ∧ slots i ≠ .full key := by
  simp [stops]

variable (hchained : Chained next home slots)
  (hsearch : search next (stops slots key) fuel (home key) = some i)

include hchained hsearch

theorem Chained.found :
    slots i = .full key ∨ slots i = .empty ∧ ∀ j, slots j ≠ .full key := by
  have ⟨d, hd, hstop, hbefore⟩ := search_spec hsearch
  rcases stops_eq_true.mp hstop with hempty | hfull
  · apply Or.inr
    refine ⟨hempty, fun j hj => ?_⟩
    have ⟨d', hd', hbefore'⟩ := hchained.reached hj
    -- the chain of the key would end before, at or after the position where the search ended
    rcases Nat.lt_trichotomy d d' with hlt | heq | hgt
    · apply hbefore' d hlt
      rw [hd, hempty]
    · rw [← hd', ← heq, hd, hempty] at hj
      cases hj
    · have := (stops_eq_false.mp (hbefore d' hgt)).2
      rw [hd'] at this
      exact this hj
  · exact Or.inl hfull

theorem Chained.fill [DecidableEq ι] (hempty : slots i = .empty) :
    Chained next home (Function.update slots i (.full key)) := by
  have ⟨d, hd, _, hbefore⟩ := search_spec hsearch
  have habsent : ∀ j, slots j ≠ .full key := by
    rcases hchained.found hsearch with hfull | ⟨_, habsent⟩
    · rw [hempty] at hfull
      cases hfull
    · exact habsent
  -- filling a position leaves no more positions empty
  have hfewer (j : ι) (h : slots j ≠ .empty) :
      Function.update slots i (.full key) j ≠ .empty := by
    rw [Function.update_apply]
    split
    · simp
    · exact h
  refine { reached := fun {j other} hj => ?_, distinct := fun {j j' other} hj hj' => ?_ }
  · rw [Function.update_apply] at hj
    split at hj
    · rename_i hji
      cases hj
      refine ⟨d, hd.trans hji.symm, fun e he => hfewer _ ?_⟩
      exact (stops_eq_false.mp (hbefore e he)).1
    · have ⟨d', hd', hbefore'⟩ := hchained.reached hj
      exact ⟨d', hd', fun e he => hfewer _ (hbefore' e he)⟩
  · rw [Function.update_apply] at hj hj'
    split at hj <;> split at hj'
    · rename_i hji hji'
      rw [hji, hji']
    · cases hj
      exact absurd hj' (habsent j')
    · cases hj'
      exact absurd hj (habsent j)
    · exact hchained.distinct hj hj'

omit hsearch [DecidableEq κ] in
/-- Marking a position as deleted: the chains that pass it stay whole. -/
theorem Chained.delete [DecidableEq ι] (i : ι) :
    Chained next home (Function.update slots i .deleted) := by
  have hfewer (j : ι) (h : slots j ≠ .empty) : Function.update slots i .deleted j ≠ .empty := by
    rw [Function.update_apply]
    split
    · simp
    · exact h
  have hold {j : ι} {other : κ} (hj : Function.update slots i .deleted j = .full other) :
      slots j = .full other := by
    rw [Function.update_apply] at hj
    split at hj
    · cases hj
    · exact hj
  refine { reached := fun {j other} hj => ?_, distinct := fun hj hj' => ?_ }
  · have ⟨d, hd, hbefore⟩ := hchained.reached (hold hj)
    exact ⟨d, hd, fun e he => hfewer _ (hbefore e he)⟩
  · exact hchained.distinct (hold hj) (hold hj')

end

end Probing

end VedDb
