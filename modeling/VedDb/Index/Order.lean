import VedDb.Index.BTree
import VedDb.Lib.Comparators
import VedDb.Storage.Keys

/-!
# The order of index keys

The orders and the equality that `index/btree.rs` derives for its keys: an `IndexValue` by the place
of its variant and then by its payload, a key by its values in turn.  They are those of the codes
except on NaNs, which are equal to every float in the order and to none in the equality.
-/

namespace VedDb

open LittleEndian (Bytes)
open Comparator (TotalPreorderOn)

/-! ## As they are derived -/

/-- The order of `[u8]`. -/
def compareBytes (a b : Bytes) : Ordering := a.compareLex compare b

namespace IndexValue

/-- The place of a variant in the enumeration. -/
def place : IndexValue → Nat
  | .null => 0
  | .bool _ => 1
  | .int _ => 2
  | .float _ => 3
  | .string _ => 4
  | .binary _ => 5
  | .objectId _ => 6
  | .dateTime _ => 7

/-- The derived `Ord`. -/
def derivedCmp : IndexValue → IndexValue → Ordering
  | .bool a, .bool b => compare a b
  | .int a, .int b => compare a b
  | .float a, .float b => a.cmp b
  | .string a, .string b => compareBytes (utf8 a) (utf8 b)
  | .binary a, .binary b => compareBytes a b
  | .objectId a, .objectId b => compareBytes a.bytes b.bytes
  | .dateTime a, .dateTime b => compare a b
  | a, b => compare a.place b.place

/-- The derived `PartialEq`. -/
def derivedEq : IndexValue → IndexValue → Bool
  | .float a, .float b => a.value.partialCmp b.value = some .eq
  | a, b => a = b

end IndexValue

namespace IndexKey

/-- The derived `Ord`: that of the vectors of the values. -/
def derivedCmp (a b : IndexKey) : Ordering := a.values.compareLex IndexValue.derivedCmp b.values

/-- The derived `PartialEq`. -/
def derivedEq (a b : IndexKey) : Bool :=
  a.values.length = b.values.length ∧
    (a.values.zip b.values).all fun pair => pair.1.derivedEq pair.2

end IndexKey

/-- Both zeros are one key, and a number that is stored as a float comes after every integer. -/
example : (IndexKey.mk [.float ⟨⟨0⟩⟩]).derivedCmp ⟨[.float ⟨⟨2 ^ 63⟩⟩]⟩ = .eq ∧
    (IndexKey.mk [.int 7]).derivedCmp ⟨[.float ⟨⟨0⟩⟩]⟩ = .lt := by decide +kernel

/-! ## Codes -/

theorem compare_toNat (a b : UInt8) :
    compare (Int.ofNat a.toNat) (Int.ofNat b.toNat) = compare a b := by
  show compareOfLessAndEq (Int.ofNat a.toNat) (Int.ofNat b.toNat) = compareOfLessAndEq a b
  unfold compareOfLessAndEq
  have hlt : Int.ofNat a.toNat < Int.ofNat b.toNat ↔ a < b := by
    rw [UInt8.lt_iff_toNat_lt]
    simp
  have heq : Int.ofNat a.toNat = Int.ofNat b.toNat ↔ a = b := by
    rw [← UInt8.toNat_inj]
    simp
  simp only [hlt, heq]

theorem compare_toInt (a b : Int64) : compare a.toInt b.toInt = compare a b := by
  show compareOfLessAndEq a.toInt b.toInt = compareOfLessAndEq a b
  unfold compareOfLessAndEq
  simp only [Int64.lt_iff_toInt_lt, Int64.toInt_inj]

theorem compareLex_map {α β : Type} {cmp : β → β → Ordering} (f : α → β) (l l' : List α) :
    (l.map f).compareLex cmp (l'.map f) = l.compareLex (fun a b => cmp (f a) (f b)) l' := by
  induction l generalizing l' with
  | nil => cases l' <;> rfl
  | cons a l ih =>
    cases l' with
    | nil => rfl
    | cons b l' =>
      rw [List.map_cons, List.map_cons, List.compareLex_cons_cons, List.compareLex_cons_cons,
        ih]

theorem compareBytes_eq (a b : Bytes) :
    compare (a.map fun byte => Int.ofNat byte.toNat) (b.map fun byte => Int.ofNat byte.toNat) =
      compareBytes a b := by
  rw [List.compare_eq_compareLex, compareLex_map, compareBytes]
  simp only [compare_toNat]

/-- Codes with one head compare by what follows it. -/
theorem compare_cons_self (head : Int) (a b : List Int) :
    compare (head :: a) (head :: b) = compare a b := by
  have hself : compare head head = .eq := Std.ReflCmp.compare_self
  rw [List.compare_eq_compareLex, List.compareLex_cons_cons, hself]
  rfl

theorem compare_singleton (a b : Int) : compare [a] [b] = compare a b := by
  rw [List.compare_eq_compareLex, List.compareLex_cons_cons]
  exact Ordering.then_eq

namespace IndexValue

/-- On values without NaNs the derived order is that of the codes. -/
theorem derivedCmp_eq {a b : IndexValue} (ha : a.isNaN = false) (hb : b.isNaN = false) :
    a.derivedCmp b = a.cmp b := by
  cases a with
  | null => cases b <;> rfl
  | bool a =>
    cases b with
    | bool b => cases a <;> cases b <;> rfl
    | _ => rfl
  | int a =>
    cases b with
    | int b =>
      show compare a b = compare [2, a.toInt] [2, b.toInt]
      rw [compare_cons_self, compare_singleton, compare_toInt]
    | _ => rfl
  | float a =>
    cases b with
    | float b => exact (cmp_float ha hb).symm
    | _ => rfl
  | string a =>
    cases b with
    | string b =>
      show compareBytes _ _ = compare (4 :: _) (4 :: _)
      rw [compare_cons_self, compareBytes_eq]
    | _ => rfl
  | binary a =>
    cases b with
    | binary b =>
      show compareBytes _ _ = compare (5 :: _) (5 :: _)
      rw [compare_cons_self, compareBytes_eq]
    | _ => rfl
  | objectId a =>
    cases b with
    | objectId b =>
      show compareBytes _ _ = compare (6 :: _) (6 :: _)
      rw [compare_cons_self, compareBytes_eq]
    | _ => rfl
  | dateTime a =>
    cases b with
    | dateTime b =>
      show compare a b = compare [7, a] [7, b]
      rw [compare_cons_self, compare_singleton]
    | _ => rfl

theorem compareBytes_eq_iff {a b : Bytes} : compareBytes a b = .eq ↔ a = b := by
  show a.compareLex compare b = .eq ↔ a = b
  exact Std.LawfulEqCmp.compare_eq_iff_eq

theorem derivedEq_iff {a b : IndexValue} (ha : a.isNaN = false) (hb : b.isNaN = false) :
    a.derivedEq b = true ↔ a.derivedCmp b = .eq := by
  cases a with
  | null => cases b <;> simp [derivedEq, derivedCmp, place]
  | bool a => cases b <;> simp [derivedEq, derivedCmp, place]
  | int a => cases b <;> simp [derivedEq, derivedCmp, place]
  | float a =>
    cases b with
    | float b =>
      have hcmp := F64.partialCmp_of_number ha hb
      simp only [derivedEq, derivedCmp, OrderedFloat.cmp, hcmp, decide_eq_true_eq,
        Option.some.injEq, Option.getD_some]
    | _ => simp [derivedEq, derivedCmp, place]
  | string a =>
    cases b with
    | string b =>
      simp only [derivedEq, derivedCmp, decide_eq_true_eq, compareBytes_eq_iff,
        string.injEq]
      exact ⟨congrArg utf8, utf8_injective⟩
    | _ => simp [derivedEq, derivedCmp, place]
  | binary a =>
    cases b <;> simp [derivedEq, derivedCmp, place, compareBytes_eq_iff]
  | objectId a =>
    cases b with
    | objectId b =>
      cases a
      cases b
      simp [derivedEq, derivedCmp, compareBytes_eq_iff]
    | _ => simp [derivedEq, derivedCmp, place]
  | dateTime a => cases b <;> simp [derivedEq, derivedCmp, place]

end IndexValue

/-! ## Keys -/

/-- The comparison of two lists looks at their own elements only. -/
theorem compareLex_congr {α : Type} {cmp cmp' : α → α → Ordering} {l l' : List α}
    (h : ∀ a ∈ l, ∀ b ∈ l', cmp a b = cmp' a b) : l.compareLex cmp l' = l.compareLex cmp' l' := by
  induction l generalizing l' with
  | nil => cases l' <;> rfl
  | cons a l ih =>
    cases l' with
    | nil => rfl
    | cons b l' =>
      rw [List.compareLex_cons_cons, List.compareLex_cons_cons,
        h a List.mem_cons_self b List.mem_cons_self]
      congr 1
      apply ih
      intro c hc d hd
      exact h c (List.mem_cons_of_mem _ hc) d (List.mem_cons_of_mem _ hd)

/-- Two lists tie exactly when they are as long as each other and their elements tie. -/
theorem compareLex_eq_iff {α : Type} {cmp : α → α → Ordering} {l l' : List α} :
    l.compareLex cmp l' = .eq ↔
      l.length = l'.length ∧ ∀ pair ∈ l.zip l', cmp pair.1 pair.2 = .eq := by
  induction l generalizing l' with
  | nil => cases l' <;> simp [List.compareLex]
  | cons a l ih =>
    cases l' with
    | nil => simp [List.compareLex]
    | cons b l' =>
      rw [List.compareLex_cons_cons, Ordering.then_eq_eq, ih, List.zip_cons_cons,
        List.forall_mem_cons, List.length_cons, List.length_cons, Nat.add_right_cancel_iff]
      exact and_left_comm

namespace IndexKey

variable {a b : IndexKey}

theorem isNaN_of_mem {value : IndexValue} (ha : a.hasNaN = false) (hvalue : value ∈ a.values) :
    value.isNaN = false := by
  unfold hasNaN at ha
  rw [List.any_eq_false] at ha
  exact Bool.eq_false_of_not_eq_true (ha value hvalue)

theorem derivedCmp_eq (ha : a.hasNaN = false) (hb : b.hasNaN = false) :
    a.derivedCmp b = a.cmp b := by
  show _ = compare (a.values.map IndexValue.code) (b.values.map IndexValue.code)
  rw [List.compare_eq_compareLex, compareLex_map]
  apply compareLex_congr
  intro value hvalue value' hvalue'
  exact IndexValue.derivedCmp_eq (isNaN_of_mem ha hvalue) (isNaN_of_mem hb hvalue')

theorem derivedEq_iff (ha : a.hasNaN = false) (hb : b.hasNaN = false) :
    a.derivedEq b = true ↔ a.derivedCmp b = .eq := by
  unfold derivedEq derivedCmp
  rw [compareLex_eq_iff, decide_eq_true_iff, List.all_eq_true]
  apply and_congr_right
  intro _
  apply forall_congr'
  intro pair
  apply imp_congr_right
  intro hpair
  obtain ⟨hvalue, hvalue'⟩ := List.of_mem_zip hpair
  exact IndexValue.derivedEq_iff (isNaN_of_mem ha hvalue) (isNaN_of_mem hb hvalue')

/-- The derived order is a total preorder on the keys without NaNs. -/
theorem derivedCmp_total : TotalPreorderOn derivedCmp fun key => key.hasNaN = false where
  refl ha := by
    rw [derivedCmp_eq ha ha]
    exact Std.ReflCmp.compare_self
  swap ha hb := by
    rw [derivedCmp_eq ha hb, derivedCmp_eq hb ha]
    exact Std.OrientedCmp.eq_swap
  trans ha hb hc := by
    rw [derivedCmp_eq ha hb, derivedCmp_eq hb hc, derivedCmp_eq ha hc]
    simp only [Ordering.ne_gt_iff_isLE]
    exact Std.TransCmp.isLE_trans

end IndexKey

end VedDb
