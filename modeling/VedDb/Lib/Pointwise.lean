import Mathlib.Data.List.Forall2
import Mathlib.Data.List.Perm.Basic
import Mathlib.Tactic.Common

/-!
# Lists related item by item

What two lists with related items say of each other.
-/

namespace VedDb

theorem exists_of_forall₂_right {α β : Type} {R : α → β → Prop} {as : List α} {bs : List β}
    (h : List.Forall₂ R as bs) {b : β} (hb : b ∈ bs) : ∃ a ∈ as, R a b := by
  induction h with
  | nil => cases hb
  | @cons a b' as bs hab _ ih =>
    cases hb with
    | head => exact ⟨a, List.mem_cons_self, hab⟩
    | tail _ hb =>
      obtain ⟨a, ha, hr⟩ := ih hb
      exact ⟨a, List.mem_cons_of_mem _ ha, hr⟩

theorem exists_of_forall₂_left {α β : Type} {R : α → β → Prop} {as : List α} {bs : List β}
    (h : List.Forall₂ R as bs) {a : α} (ha : a ∈ as) : ∃ b ∈ bs, R a b :=
  exists_of_forall₂_right h.flip ha

theorem map_eq_map_of_forall₂ {α β γ : Type} {f : α → γ} {g : β → γ} {as : List α} {bs : List β}
    (h : List.Forall₂ (fun a b => f a = g b) as bs) : as.map f = bs.map g := by
  induction h with
  | nil => rfl
  | cons hab _ ih => rw [List.map_cons, List.map_cons, hab, ih]

/-- What a list is mapped to, in another order, is what it is mapped to in that order. -/
theorem exists_map_eq_of_perm {α β : Type} {f : α → β} {as : List α} {bs : List β}
    (h : bs.Perm (as.map f)) : ∃ ordered : List α, ordered.Perm as ∧ ordered.map f = bs := by
  have hmap : List.Forall₂ (fun b a => b = f a) (as.map f) as := by
    rw [List.forall₂_map_left_iff, List.forall₂_same]
    exact fun _ _ => rfl
  obtain ⟨ordered, hordered, hperm⟩ := List.perm_comp_forall₂ h hmap
  have heq := map_eq_map_of_forall₂ (f := id) (g := f) hordered
  rw [List.map_id] at heq
  exact ⟨ordered, hperm, heq.symm⟩

theorem countP_eq_of_forall₂ {α β : Type} {R : α → β → Prop} {p : α → Bool} {q : β → Bool}
    (hpq : ∀ {a b}, R a b → p a = q b) {as : List α} {bs : List β} (h : List.Forall₂ R as bs) :
    as.countP p = bs.countP q := by
  induction h with
  | nil => rfl
  | cons hab _ ih => rw [List.countP_cons, List.countP_cons, ih, hpq hab]

theorem exists_forall₂ {α β : Type} {R : α → β → Prop} {as : List α} (h : ∀ a ∈ as, ∃ b, R a b) :
    ∃ bs, List.Forall₂ R as bs := by
  induction as with
  | nil => exact ⟨[], .nil⟩
  | cons a as ih =>
    obtain ⟨b, hb⟩ := h a List.mem_cons_self
    obtain ⟨bs, hbs⟩ := ih (fun a ha => h a (List.mem_cons_of_mem _ ha))
    exact ⟨b :: bs, .cons hb hbs⟩

-- Related entries are found under the same name.
theorem lookup_of_forall₂ {α : Type} {R : String × α → String × α → Prop}
    (hname : ∀ {a b}, R a b → b.1 = a.1) {as bs : List (String × α)} (h : List.Forall₂ R as bs)
    {name : String} {a : α} (ha : as.lookup name = some a) :
    ∃ b, bs.lookup name = some b ∧ R (name, a) (name, b) := by
  induction h with
  | nil => cases ha
  | @cons own own' as bs hown _ ih =>
    obtain ⟨own, value⟩ := own
    obtain ⟨own', value'⟩ := own'
    have hsame : own' = own := hname hown
    subst hsame
    rw [List.lookup_cons] at ha ⊢
    by_cases heq : (name == own') = true
    · simp only [heq, Option.some.injEq] at ha
      simp only [heq]
      rw [beq_iff_eq.mp heq, ← ha]
      exact ⟨value', rfl, hown⟩
    · simp only [heq] at ha ⊢
      exact ih ha

/-!
## Lists changed at some of their places
-/

/-- The items at the given places are changed, one place at a time. -/
def modifyEach {α : Type} (f : α → α) (places : List Nat) (xs : List α) : List α :=
  places.foldl (fun xs place => xs.modify place f) xs

theorem length_modifyEach {α : Type} (f : α → α) (places : List Nat) (xs : List α) :
    (modifyEach f places xs).length = xs.length := by
  induction places generalizing xs with
  | nil => rfl
  | cons place places ih =>
    show (modifyEach f places (xs.modify place f)).length = _
    rw [ih, List.length_modify]

theorem getElem?_modifyEach {α : Type} (f : α → α) {places : List Nat} (hnodup : places.Nodup)
    (xs : List α) (index : Nat) :
    (modifyEach f places xs)[index]? = if index ∈ places then xs[index]?.map f else xs[index]? := by
  induction places generalizing xs with
  | nil => rfl
  | cons place places ih =>
    rw [List.nodup_cons] at hnodup
    show (modifyEach f places (xs.modify place f))[index]? = _
    rw [ih hnodup.2, List.getElem?_modify]
    by_cases hplace : place = index
    · subst hplace
      simp only [if_neg hnodup.1, if_true, List.mem_cons_self, Option.map_eq_map]
    · have hmem : index ∈ place :: places ↔ index ∈ places := by
        rw [List.mem_cons, or_iff_right (Ne.symm hplace)]
      simp only [if_neg hplace, hmem, Option.map_eq_map, Option.map_id']

/-!
## Chunks

A list cut into pieces of one length, of which the last may be shorter.
-/

/-- `slice::chunks` for a positive chunk size, with fuel for the number of chunks. -/
def chunksFuel {α : Type*} (n : Nat) : Nat → List α → List (List α)
  | 0, _ => []
  | _ + 1, [] => []
  | fuel + 1, x :: xs => (x :: xs).take n :: chunksFuel n fuel ((x :: xs).drop n)

def chunks {α : Type*} (n : Nat) (xs : List α) : List (List α) := chunksFuel n xs.length xs

theorem chunksFuel_flatten {α : Type*} {n : Nat} (hn : n ≠ 0) :
    ∀ (fuel : Nat) (xs : List α), xs.length ≤ fuel → (chunksFuel n fuel xs).flatten = xs
  | 0, xs, h => by
      rw [List.length_eq_zero_iff.mp (Nat.le_zero.mp h)]
      rfl
  | _ + 1, [], _ => rfl
  | fuel + 1, x :: xs, h => by
      have hlen : ((x :: xs).drop n).length ≤ fuel := by
        rw [List.length_drop]
        simp only [List.length_cons] at h ⊢
        omega
      rw [chunksFuel, List.flatten_cons, chunksFuel_flatten hn fuel _ hlen, List.take_append_drop]

-- The batches are the documents, in order.
theorem chunks_flatten {α : Type*} {n : Nat} (hn : n ≠ 0) (xs : List α) :
    (chunks n xs).flatten = xs :=
  chunksFuel_flatten hn xs.length xs (Nat.le_refl _)

end VedDb
