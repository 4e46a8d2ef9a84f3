import VedDb.Lib.Comparators

/-!
# Sorting by keys

Records that are compared by the values found in them, key after key, each key upwards or
downwards; a record without a value comes before those with one.  What this does is said by the
order below the comparison of values, and by the values that confuse two others.
-/

namespace VedDb

namespace Comparator

variable {α β κ δ : Type}

/-! ## Keys -/

/-- Neither element is before the other one. -/
def Ties (before : α → α → Prop) (a b : α) : Prop := ¬before a b ∧ ¬before b a

/-- Some key puts one element before another one, and they tie at the keys before it. -/
def BeforeBy (before : κ → α → α → Prop) (keys : List κ) (a b : α) : Prop :=
  ∃ first key rest, keys = first ++ key :: rest ∧ (∀ k ∈ first, Ties (before k) a b) ∧
    before key a b

structure SortKey (δ β : Type) where
  value : δ → Option β
  descending : Bool

/-- The comparison of what two records hold at a key. -/
def missingFirst (cmp : β → β → Ordering) : Option β → Option β → Ordering
  | some v, some w => cmp v w
  | some _, none => .gt
  | none, some _ => .lt
  | none, none => .eq

/-- What a record holds at a key is below what another one holds there. -/
def MissingBelow (below : β → β → Prop) : Option β → Option β → Prop
  | some v, some w => below v w
  | none, some _ => True
  | _, none => False

namespace SortKey

variable (key : SortKey δ β)

def compare (cmp : β → β → Ordering) (a b : δ) : Ordering :=
  let order := missingFirst cmp (key.value a) (key.value b)
  if key.descending then order.swap else order

/-- The key puts one record before another one. -/
def Before (below : β → β → Prop) (a b : δ) : Prop :=
  if key.descending then MissingBelow below (key.value b) (key.value a)
  else MissingBelow below (key.value a) (key.value b)

/-- The key puts one record before another one, and a third one has a value that confuses them. -/
def Confuses (confuses : β → β → β → Prop) (a b c : δ) : Prop :=
  ∃ low high other, key.value (if key.descending then b else a) = some low ∧
    key.value (if key.descending then a else b) = some high ∧ key.value c = some other ∧
      confuses low high other

end SortKey

/-- Some key confuses three records that tie at the keys before it, and the keys after it put the
third one neither before the second nor after the first. -/
def Confuses (below : β → β → Prop) (confuses : β → β → β → Prop) (keys : List (SortKey δ β))
    (a b c : δ) : Prop :=
  ∃ first key rest, keys = first ++ key :: rest ∧
    (∀ k ∈ first, Ties (k.Before below) a b ∧ Ties (k.Before below) a c ∧
      Ties (k.Before below) b c) ∧
    key.Confuses confuses a b c ∧
      ¬BeforeBy (SortKey.Before · below) rest c b ∧ ¬BeforeBy (SortKey.Before · below) rest a c

/-! ## What a comparison of values says -/

/-- A comparison says which value is below, and which values confuse two others. -/
structure Orders (cmp : β → β → Ordering) (below : β → β → Prop) (confuses : β → β → β → Prop) :
    Prop where
  lawful : Lawful cmp
  lt_iff {v w : β} : cmp v w = .lt ↔ below v w
  clashes_iff {v w u : β} : Clashes cmp v w u ↔ confuses v w u

variable {cmp : α → α → Ordering} {before : α → α → Prop}

theorem Lawful.eq_iff_ties (h : Lawful cmp) (hlt : ∀ a b, cmp a b = .lt ↔ before a b) {a b : α} :
    cmp a b = .eq ↔ Ties before a b := by
  have hgt : cmp a b = .gt ↔ before b a := h.gt_iff.trans (hlt b a)
  rw [Ties, ← hlt a b, ← hgt]
  cases cmp a b with
  | lt => simp
  | eq => simp
  | gt => simp

open Classical in
/-- The comparison that an order makes. -/
noncomputable def orderBy (before : α → α → Prop) (a b : α) : Ordering :=
  if before a b then .lt else if before b a then .gt else .eq

theorem eq_orderBy (hswap : ∀ a b, cmp b a = (cmp a b).swap)
    (hlt : ∀ a b, cmp a b = .lt ↔ before a b) : cmp = orderBy before := by
  funext a b
  rw [orderBy]
  split
  next hab => exact (hlt a b).mpr hab
  next hab =>
    rw [← hlt] at hab
    split
    next hba =>
      rw [hswap b a, (hlt b a).mpr hba]
      rfl
    next hba =>
      rw [← hlt, hswap a b, Ordering.swap_eq_lt] at hba
      cases hcmp : cmp a b with
      | lt => exact absurd hcmp hab
      | eq => rfl
      | gt => exact absurd hcmp hba

/-- Comparing by some keys says which element is before the other one. -/
theorem before_map_iff {cmp : κ → α → α → Ordering} {before : κ → α → α → Prop} {keys : List κ}
    (h : ∀ key, Lawful (cmp key)) (hlt : ∀ key a b, cmp key a b = .lt ↔ before key a b)
    {a b : α} : Before (keys.map cmp) a b ↔ BeforeBy before keys a b := by
  constructor
  · rintro ⟨first, own, rest, hsplit, hfirst, hown⟩
    obtain ⟨first', keys', rfl, rfl, hkeys⟩ := List.map_eq_append_iff.mp hsplit
    obtain ⟨key, rest', rfl, rfl, rfl⟩ := List.map_eq_cons_iff.mp hkeys
    refine ⟨first', key, rest', rfl, fun k hk => ?_, (hlt key a b).mp hown⟩
    exact (h k).eq_iff_ties (hlt k) |>.mp (hfirst _ (List.mem_map_of_mem hk))
  · rintro ⟨first, key, rest, rfl, hfirst, hkey⟩
    refine ⟨first.map cmp, cmp key, rest.map cmp, List.map_append, fun own hown => ?_,
      (hlt key a b).mpr hkey⟩
    obtain ⟨k, hk, rfl⟩ := List.mem_map.mp hown
    exact ((h k).eq_iff_ties (hlt k)).mpr (hfirst k hk)

/-! ## Missing values and directions -/

section

variable {cmp : β → β → Ordering} {below : β → β → Prop} {confuses : β → β → β → Prop}
  {key : SortKey δ β} {keys : List (SortKey δ β)} {a b c : δ} {S : δ → Prop}

theorem missingFirst_lawful (h : Lawful cmp) : Lawful (missingFirst cmp) where
  swap v w := by
    cases v with
    | none =>
      cases w with
      | none => rfl
      | some w => rfl
    | some v =>
      cases w with
      | none => rfl
      | some w => exact h.swap v w
  lt_trans {v w u} hvw hwu := by
    cases u with
    | none =>
      cases w with
      | none => cases hwu
      | some w => cases hwu
    | some u =>
      cases v with
      | none => rfl
      | some v =>
        cases w with
        | none => cases hvw
        | some w => exact h.lt_trans hvw hwu

theorem missingFirst_eq_lt_iff (hlt : ∀ v w, cmp v w = .lt ↔ below v w) {v w : Option β} :
    missingFirst cmp v w = .lt ↔ MissingBelow below v w := by
  cases v with
  | none =>
    cases w with
    | none => simp [missingFirst, MissingBelow]
    | some w => simp [missingFirst, MissingBelow]
  | some v =>
    cases w with
    | none => simp [missingFirst, MissingBelow]
    | some w => exact hlt v w

/-- Missing values confuse nothing. -/
theorem clashes_missingFirst_iff {x y z : Option β} :
    Clashes (missingFirst cmp) x y z ↔
      ∃ v w u, x = some v ∧ y = some w ∧ z = some u ∧ Clashes cmp v w u := by
  constructor
  · rintro ⟨hlt, hx, hy⟩
    cases z with
    | none =>
      cases y with
      | none =>
        cases x with
        | none => cases hlt
        | some v => cases hlt
      | some w => cases hy
    | some u =>
      cases x with
      | none => cases hx
      | some v =>
        cases y with
        | none => cases hlt
        | some w => exact ⟨v, w, u, rfl, rfl, rfl, hlt, hx, hy⟩
  · rintro ⟨v, w, u, rfl, rfl, rfl, hclash⟩
    exact hclash

theorem SortKey.compare_lawful (h : Lawful cmp) (key : SortKey δ β) :
    Lawful (key.compare cmp) := by
  have hmissing := missingFirst_lawful h
  cases hdown : key.descending with
  | false =>
    refine ⟨fun a b => ?_, fun {a b c} hab hbc => ?_⟩
    · simp only [SortKey.compare, hdown]
      exact hmissing.swap _ _
    · simp only [SortKey.compare, hdown] at hab hbc ⊢
      exact hmissing.lt_trans hab hbc
  | true =>
    refine ⟨fun a b => ?_, fun {a b c} hab hbc => ?_⟩
    · simp only [SortKey.compare, hdown, if_true]
      exact hmissing.reverse.swap _ _
    · simp only [SortKey.compare, hdown, if_true] at hab hbc ⊢
      exact hmissing.reverse.lt_trans hab hbc

theorem SortKey.compare_eq_lt_iff (h : Orders cmp below confuses) :
    key.compare cmp a b = .lt ↔ key.Before below a b := by
  have hlt {v w : Option β} : missingFirst cmp v w = .lt ↔ MissingBelow below v w :=
    missingFirst_eq_lt_iff fun _ _ => h.lt_iff
  rw [SortKey.compare, SortKey.Before]
  split
  · rw [Ordering.swap_eq_lt, (missingFirst_lawful h.lawful).gt_iff, hlt]
  · exact hlt

theorem SortKey.clashes_compare_iff (h : Orders cmp below confuses) :
    Clashes (key.compare cmp) a b c ↔ key.Confuses confuses a b c := by
  have hmissing := missingFirst_lawful h.lawful
  have hclashes {x y z : Option β} : Clashes (missingFirst cmp) x y z ↔
      ∃ v w u, x = some v ∧ y = some w ∧ z = some u ∧ confuses v w u := by
    simp only [clashes_missingFirst_iff, h.clashes_iff]
  cases hdown : key.descending with
  | false =>
    have hcompare {a b : δ} :
        key.compare cmp a b = missingFirst cmp (key.value a) (key.value b) := by
      simp [SortKey.compare, hdown]
    rw [Clashes, hcompare, hcompare, hcompare]
    simp only [SortKey.Confuses, hdown]
    exact hclashes
  | true =>
    have hcompare {a b : δ} :
        key.compare cmp a b = (missingFirst cmp (key.value a) (key.value b)).swap := by
      simp [SortKey.compare, hdown]
    rw [Clashes, hcompare, hcompare, hcompare, Ordering.swap_eq_lt, Ordering.swap_eq_eq,
      Ordering.swap_eq_eq, hmissing.gt_iff]
    simp only [SortKey.Confuses, hdown, if_true]
    refine Iff.trans ?_ hclashes
    exact ⟨fun h => ⟨h.1, h.2.2, h.2.1⟩, fun h => ⟨h.1, h.2.2, h.2.1⟩⟩

/-! ## Comparing by keys -/

theorem compareBy_eq_lt_iff (h : Orders cmp below confuses) :
    lexicographic (keys.map (SortKey.compare · cmp)) a b = .lt ↔
      BeforeBy (SortKey.Before · below) keys a b := by
  rw [lexicographic_eq_lt_iff]
  exact before_map_iff (fun key => key.compare_lawful h.lawful) fun _ _ _ =>
    SortKey.compare_eq_lt_iff h

theorem lexClashes_iff_confuses (h : Orders cmp below confuses) :
    LexClashes (keys.map (SortKey.compare · cmp)) a b c ↔ Confuses below confuses keys a b c := by
  have hlawful (key : SortKey δ β) : Lawful (key.compare cmp) := key.compare_lawful h.lawful
  have hties {key : SortKey δ β} {a b : δ} :
      key.compare cmp a b = .eq ↔ Ties (key.Before below) a b :=
    (hlawful key).eq_iff_ties fun _ _ => SortKey.compare_eq_lt_iff h
  have hbefore {keys : List (SortKey δ β)} {a b : δ} :
      Before (keys.map (SortKey.compare · cmp)) a b ↔ BeforeBy (SortKey.Before · below) keys a b :=
    before_map_iff hlawful fun _ _ _ => SortKey.compare_eq_lt_iff h
  constructor
  · rintro ⟨first, own, rest, hsplit, hfirst, hclash, hcb, hac⟩
    obtain ⟨first', keys', rfl, rfl, hkeys⟩ := List.map_eq_append_iff.mp hsplit
    obtain ⟨key, rest', rfl, rfl, rfl⟩ := List.map_eq_cons_iff.mp hkeys
    refine ⟨first', key, rest', rfl, fun k hk => ?_, (SortKey.clashes_compare_iff h).mp hclash,
      fun hby => hcb (hbefore.mpr hby), fun hby => hac (hbefore.mpr hby)⟩
    obtain ⟨hab, hac, hbc⟩ := hfirst _ (List.mem_map_of_mem hk)
    exact ⟨hties.mp hab, hties.mp hac, hties.mp hbc⟩
  · rintro ⟨first, key, rest, rfl, hfirst, hkey, hcb, hac⟩
    refine ⟨first.map (SortKey.compare · cmp), key.compare cmp, rest.map (SortKey.compare · cmp),
      List.map_append, fun own hown => ?_, (SortKey.clashes_compare_iff h).mpr hkey,
      fun hby => hcb (hbefore.mp hby), fun hby => hac (hbefore.mp hby)⟩
    obtain ⟨k, hk, rfl⟩ := List.mem_map.mp hown
    obtain ⟨hab, hac, hbc⟩ := hfirst k hk
    exact ⟨hties.mpr hab, hties.mpr hac, hties.mpr hbc⟩

theorem compareBy_sided (h : Orders cmp below confuses) :
    Sided (lexicographic (keys.map (SortKey.compare · cmp))) := by
  refine lexicographic_swap fun own hown => ?_
  obtain ⟨key, -, rfl⟩ := List.mem_map.mp hown
  exact key.compare_lawful h.lawful

theorem compareBy_eq_orderBy (h : Orders cmp below confuses) :
    lexicographic (keys.map (SortKey.compare · cmp)) =
      orderBy (BeforeBy (SortKey.Before · below) keys) :=
  eq_orderBy (compareBy_sided h) fun _ _ => compareBy_eq_lt_iff h

theorem totalPreorderOn_compareBy_iff (h : Orders cmp below confuses) :
    TotalPreorderOn (lexicographic (keys.map (SortKey.compare · cmp))) S ↔
      ∀ a b c, S a → S b → S c → ¬Confuses below confuses keys a b c := by
  have hlawful (own : δ → δ → Ordering) (hown : own ∈ keys.map (SortKey.compare · cmp)) :
      Lawful own := by
    obtain ⟨key, -, rfl⟩ := List.mem_map.mp hown
    exact key.compare_lawful h.lawful
  rw [totalPreorderOn_lexicographic_iff hlawful]
  simp only [lexClashes_iff_confuses h]

end

end Comparator

end VedDb
