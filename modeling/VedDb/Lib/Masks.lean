import Mathlib.Algebra.Group.Nat.Defs
import Mathlib.Tactic.Common

/-!
# Masks

A word of 64 bits taken modulo a power of two, by the mask of its low bits, and rounded down to a
multiple of it by the mask of the others.
-/

namespace VedDb

theorem two_pow_lt_two_pow_64 (bits : Fin 64) : 2 ^ bits.val < 2 ^ 64 :=
  Nat.pow_lt_pow_right (by decide) bits.isLt

theorem toNat_ofNat_two_pow (bits : Fin 64) : (UInt64.ofNat (2 ^ bits.val)).toNat = 2 ^ bits.val :=
  UInt64.toNat_ofNat_of_lt' (two_pow_lt_two_pow_64 bits)

/-- The low bits of a word are its remainder. -/
theorem toNat_and_low_bits (bits : Fin 64) (x : UInt64) :
    (x &&& UInt64.ofNat (2 ^ bits.val - 1)).toNat = x.toNat % 2 ^ bits.val := by
  have hlt := two_pow_lt_two_pow_64 bits
  have hsize : 2 ^ bits.val - 1 < UInt64.size := by
    show 2 ^ bits.val - 1 < 2 ^ 64
    omega
  rw [UInt64.toNat_and, UInt64.toNat_ofNat_of_lt' hsize, Nat.and_two_pow_sub_one_eq_mod]

/-- The other bits of a word are the largest multiple below it. -/
theorem toNat_and_high_bits (bits : Fin 64) (x : UInt64) :
    (x &&& ~~~(UInt64.ofNat (2 ^ bits.val) - 1)).toNat =
      x.toNat / 2 ^ bits.val * 2 ^ bits.val := by
  have hmask : (UInt64.ofNat (2 ^ bits.val) - 1).toNat = 2 ^ bits.val - 1 := by
    have hone : (1 : UInt64) ≤ UInt64.ofNat (2 ^ bits.val) := by
      rw [UInt64.le_iff_toNat_le, toNat_ofNat_two_pow]
      exact Nat.one_le_two_pow
    rw [UInt64.toNat_sub_of_le _ _ hone, toNat_ofNat_two_pow, UInt64.toNat_one]
  have hlt := two_pow_lt_two_pow_64 bits
  have hnot : UInt64.size - 1 - (2 ^ bits.val - 1) = 2 ^ 64 - (2 ^ bits.val - 1 + 1) := by
    show 2 ^ 64 - 1 - (2 ^ bits.val - 1) = _
    rw [Nat.sub_sub, Nat.add_comm 1]
  rw [UInt64.toNat_and, UInt64.toNat_not, hmask, hnot]
  apply Nat.eq_of_testBit_eq
  intro i
  rw [Nat.testBit_and, Nat.testBit_two_pow_sub_succ (by omega), Nat.testBit_two_pow_sub_one,
    Nat.testBit_mul_two_pow, Nat.testBit_div_two_pow]
  by_cases hi : i < bits.val
  · have hlow : ¬bits.val ≤ i := Nat.not_le.mpr hi
    simp [hi, hlow]
  · have hhigh : bits.val ≤ i := Nat.not_lt.mp hi
    rw [Nat.sub_add_cancel hhigh]
    by_cases hword : i < 64
    · simp [hi, hhigh, hword]
    · have hpow : 2 ^ 64 ≤ 2 ^ i := Nat.pow_le_pow_right (by decide) (Nat.not_lt.mp hword)
      have hzero : x.toNat.testBit i = false :=
        Nat.testBit_lt_two_pow (Nat.lt_of_lt_of_le x.toNat_lt hpow)
      simp [hzero]

/-! ## Alignment -/

/-- The next multiple of an alignment. -/
def alignUp (offset align : Nat) : Nat := (offset + (align - 1)) / align * align

theorem le_alignUp {offset align : Nat} (h : 0 < align) : offset ≤ alignUp offset align := by
  have hlt := Nat.lt_mul_div_succ (offset + (align - 1)) h
  rw [Nat.mul_succ, Nat.mul_comm] at hlt
  rw [alignUp]
  omega

end VedDb
