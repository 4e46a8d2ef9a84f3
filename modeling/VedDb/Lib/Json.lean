import Mathlib.Data.List.Sort
import VedDb.Lib.LittleEndian
import VedDb.Lib.Lookups

/-!
# JSON

JSON values over any numbers with a fraction, and the text they are written as.  An object keeps its
members in the order of the text, one name as often as it stands there.  A reader of texts enters a
bounded number of containers.
-/

open LittleEndian (Bytes)

/-- A JSON value.  A number without a fraction or an exponent is an integer. -/
inductive Json (R : Type) where
  | null
  | bool (b : Bool)
  | integer (n : Int)
  | real (r : R)
  | string (s : String)
  | array (items : List (Json R))
  | object (members : List (String × Json R))

namespace Json

variable {R : Type}

/-! ## Depth -/

mutual

/-- The containers around the value that lies deepest, an empty container being one around itself.
-/
def depth : Json R → Nat
  | .array items => depthItems items + 1
  | .object members => depthMembers members + 1
  | _ => 0

def depthItems : List (Json R) → Nat
  | [] => 0
  | item :: items => max item.depth (depthItems items)

def depthMembers : List (String × Json R) → Nat
  | [] => 0
  | (_, value) :: members => max value.depth (depthMembers members)

end

-- Scalars in an array add nothing.
theorem depthItems_map_integer {α : Type} (f : α → Int) (items : List α) :
    depthItems (items.map fun item => (.integer (f item) : Json R)) = 0 := by
  induction items with
  | nil => rfl
  | cons item items ih =>
    rw [List.map_cons, depthItems, ih]
    rfl

theorem depthItems_le_iff {items : List (Json R)} {n : Nat} :
    depthItems items ≤ n ↔ ∀ item ∈ items, item.depth ≤ n := by
  induction items with
  | nil => exact iff_of_true (Nat.zero_le n) fun item hitem => absurd hitem List.not_mem_nil
  | cons item items ih => rw [depthItems, Nat.max_le, ih, List.forall_mem_cons]

theorem depthMembers_le_iff {members : List (String × Json R)} {n : Nat} :
    depthMembers members ≤ n ↔ ∀ member ∈ members, member.2.depth ≤ n := by
  induction members with
  | nil => exact iff_of_true (Nat.zero_le n) fun member hmember => absurd hmember List.not_mem_nil
  | cons member members ih => rw [depthMembers, Nat.max_le, ih, List.forall_mem_cons]

/-! ## Text -/

structure Text (R : Type) where
  write : Json R → Bytes
  read : Bytes → Except String (Json R)

/-- What is written for the value is read back, unless it lies too deep. -/
def Text.Faithful (text : Text R) (limit : Nat) (value : Json R) : Prop :=
  if value.depth ≤ limit then text.read (text.write value) = .ok value
  else ∃ e, text.read (text.write value) = .error e

/-! ## Members of an object -/

/-- The value of the last member of each name. -/
def lastMembers {α : Type} (members : List (String × α)) : Std.ExtTreeMap String α :=
  .ofList members

theorem perm_toList_lastMembers {α : Type} {members : List (String × α)}
    (h : members.Pairwise fun a b => compare a.1 b.1 = .lt) :
    (lastMembers members).toList.Perm members := by
  refine VedDb.toList_ofList_perm (List.pairwise_map.mpr (h.imp ?_))
  intro a b hlt heq
  have hself : compare b.1 b.1 = .eq := Std.ReflCmp.compare_self
  rw [heq, hself] at hlt
  cases hlt

theorem toList_lastMembers {α : Type} {members : List (String × α)}
    (h : members.Pairwise fun a b => compare a.1 b.1 = .lt) :
    (lastMembers members).toList = members := by
  have hantisymm (a b : String × α) (_ : a ∈ (lastMembers members).toList) (_ : b ∈ members)
      (hab : compare a.1 b.1 = .lt) (hba : compare b.1 a.1 = .lt) : a = b := by
    have hswap : compare a.1 b.1 = (compare b.1 a.1).swap := Std.OrientedCmp.eq_swap
    rw [hab, hba] at hswap
    cases hswap
  exact (perm_toList_lastMembers h).eq_of_pairwise hantisymm Std.ExtTreeMap.ordered_keys_toList h

/-- The entries of a map make it up again. -/
theorem lastMembers_toList {α : Type} (map : Std.ExtTreeMap String α) :
    lastMembers map.toList = map := VedDb.ofList_of_perm (.refl _)

end Json
