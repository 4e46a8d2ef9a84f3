/-!
# Partial lenses

A part of a state that can be read where it is there, and written where it may be.  A lens into a
part goes on from a lens that reaches it; where the part is not there yet, a fresh one is made.
-/

structure PartialLens (S V : Type) where
  get : S → Option V
  put : V → S → Option S

namespace PartialLens

variable {S A V : Type}

/-- What is written is read, the last write is the one that counts, and to write what is there
changes nothing.  Whether a write is refused does not depend on what is written. -/
structure Lawful (lens : PartialLens S V) : Prop where
  get_put {s s' : S} {v : V} : lens.put v s = some s' → lens.get s' = some v
  put_put {s s' : S} {v w : V} : lens.put v s = some s' → lens.put w s' = lens.put w s
  put_get {s s' : S} {v : V} : lens.get s = some v → lens.put v s = some s' → s' = s
  put_any {s s' : S} {v : V} (w : V) : lens.put v s = some s' → ∃ s'', lens.put w s = some s''

/-- A write leaves what the other lens reads as it is. -/
def Apart {W : Type} (lens : PartialLens S V) (other : PartialLens S W) : Prop :=
  ∀ (s s' : S) (v : V), lens.put v s = some s' → other.get s' = other.get s

/-- The whole state. -/
def whole (S : Type) : PartialLens S S where
  get s := some s
  put v _ := some v

def compose (outer : PartialLens S A) (fresh : A) (inner : PartialLens A V) : PartialLens S V where
  get s := (outer.get s).bind inner.get
  put v s := (inner.put v ((outer.get s).getD fresh)).bind fun a => outer.put a s

theorem whole_lawful : (whole S).Lawful where
  get_put h := h.symm
  put_put _ := rfl
  put_get hget hput := by
    rw [← Option.some.inj hget] at hput
    exact (Option.some.inj hput).symm
  put_any w _ := ⟨w, rfl⟩

variable {outer : PartialLens S A} {fresh : A} {inner : PartialLens A V} {s s' : S} {v : V}

/-- A write into a part of a part writes the inner part and puts it in its place. -/
theorem compose_put_eq_some_iff : (outer.compose fresh inner).put v s = some s' ↔
    ∃ a, inner.put v ((outer.get s).getD fresh) = some a ∧ outer.put a s = some s' := by
  rw [compose, Option.bind_eq_some_iff]

theorem Lawful.compose (houter : outer.Lawful) (hinner : inner.Lawful) :
    (outer.compose fresh inner).Lawful where
  get_put h := by
    obtain ⟨a, ha, hs⟩ := compose_put_eq_some_iff.mp h
    show (outer.get _).bind inner.get = _
    rw [houter.get_put hs, Option.bind_some, hinner.get_put ha]
  put_put {s s' v w} h := by
    obtain ⟨a, ha, hs⟩ := compose_put_eq_some_iff.mp h
    have hafter (b : A) : outer.put b s' = outer.put b s := houter.put_put hs
    show (inner.put w ((outer.get s').getD fresh)).bind (fun b => outer.put b s') = _
    rw [houter.get_put hs, Option.getD_some, hinner.put_put ha]
    simp only [hafter]
    rfl
  put_get {s s' v} hget hput := by
    obtain ⟨b, hb, hv⟩ := Option.bind_eq_some_iff.mp hget
    obtain ⟨a, ha, hs⟩ := compose_put_eq_some_iff.mp hput
    rw [hb, Option.getD_some] at ha
    rw [hinner.put_get hv ha] at hs
    exact houter.put_get hb hs
  put_any w h := by
    obtain ⟨a, ha, hs⟩ := compose_put_eq_some_iff.mp h
    obtain ⟨b, hb⟩ := hinner.put_any w ha
    obtain ⟨s'', hs''⟩ := houter.put_any b hs
    exact ⟨s'', compose_put_eq_some_iff.mpr ⟨b, hb, hs''⟩⟩

theorem Apart.compose {W : Type} {other : PartialLens A W} (houter : outer.Lawful)
    (h : inner.Apart other) (hfresh : other.get fresh = none) :
    (outer.compose fresh inner).Apart (outer.compose fresh other) := by
  intro s s' v hput
  obtain ⟨a, ha, hs⟩ := compose_put_eq_some_iff.mp hput
  show (outer.get s').bind other.get = (outer.get s).bind other.get
  rw [houter.get_put hs, Option.bind_some, h _ _ _ ha]
  cases outer.get s with
  | none => exact hfresh
  | some own => rfl

/-- What an outer lens leaves alone, a lens into its part leaves alone. -/
theorem Apart.compose_left {W : Type} {other : PartialLens S W} (h : outer.Apart other) :
    (outer.compose fresh inner).Apart other := by
  intro s s' v hput
  obtain ⟨a, ha, hs⟩ := compose_put_eq_some_iff.mp hput
  exact h _ _ _ hs

/-- What lies apart from a part lies apart from what is inside of the other. -/
theorem Apart.compose_right {W X : Type} {other : PartialLens S W} {freshOther : W}
    {rest : PartialLens W X} {lens : PartialLens S V} (h : lens.Apart other) :
    lens.Apart (other.compose freshOther rest) := by
  intro s s' v hput
  show (other.get s').bind rest.get = (other.get s).bind rest.get
  rw [h s s' v hput]

end PartialLens
