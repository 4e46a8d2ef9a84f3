import VedDb.Document

/-!
# Doubles

The comparison of `f64` on bit patterns: sign and magnitude, where both zeros are one number and a
NaN compares with nothing.  And the rounding of whole numbers to doubles.
-/

namespace VedDb.F64

/-- The bits below the sign.  For numbers they grow with the absolute value. -/
def magnitude (f : F64) : Nat := f.bits.toNat % 2 ^ 63

/-- `f64::is_nan`: all exponent bits and some bit of the significand. -/
def isNaN (f : F64) : Bool := 0x7FF0000000000000 < f.magnitude

def isFinite (f : F64) : Bool := f.magnitude < 0x7FF0000000000000

/-- The place of a number among the doubles. -/
def rank (f : F64) : Int := if f.bits.toNat < 2 ^ 63 then f.magnitude else -f.magnitude

def partialCmp (a b : F64) : Option Ordering :=
  if a.isNaN || b.isNaN then none else some (compare a.rank b.rank)

theorem partialCmp_of_number {a b : F64} (ha : a.isNaN = false) (hb : b.isNaN = false) :
    a.partialCmp b = some (compare a.rank b.rank) := by
  rw [partialCmp, ha, hb]
  rfl

/-- The double nearest to a whole number, of two equally near ones the one with an even significand
of 53 bits. -/
def round (n : Nat) : Nat :=
  let unit := 2 ^ (Nat.log2 n - 52)
  let down := n / unit
  let rest := n % unit
  if unit < 2 * rest ∨ (unit = 2 * rest ∧ down % 2 = 1) then (down + 1) * unit else down * unit

/-- Up to 53 bits every whole number is a double. -/
theorem round_of_lt {n : Nat} (h : n < 2 ^ 53) : round n = n := by
  have hlog : Nat.log2 n - 52 = 0 := by
    by_cases hn : n = 0
    · rw [hn]
      rfl
    · have := (Nat.log2_lt hn).mpr h
      omega
  rw [round]
  rw [hlog, Nat.pow_zero, Nat.div_one, Nat.mod_one, if_neg (by omega), Nat.mul_one]

/-- Halfway between two doubles, the even one is taken. -/
example : round (2 ^ 53 + 1) = 2 ^ 53 ∧ round (2 ^ 53 + 3) = 2 ^ 53 + 4 := by decide

/-- The bits of the double nearest to a whole number. -/
def natBits (n : Nat) : Nat :=
  let rounded := round n
  let exponent := Nat.log2 rounded
  if n = 0 then 0 else (exponent + 1023) * 2 ^ 52 + (rounded * 2 ^ 52 / 2 ^ exponent - 2 ^ 52)

/-- `as f64`, of an integer of 64 bits. -/
def ofInt (i : Int) : F64 :=
  ⟨UInt64.ofNat (natBits i.natAbs + if i < 0 then 2 ^ 63 else 0)⟩

/-- Three is one and a half times two. -/
example : ofInt (-3) = ⟨0xC008000000000000⟩ := by decide

/-! ## Rounding keeps the order -/

/-- The distance of the doubles around a whole number. -/
theorem round_bounds (n : Nat) :
    n / 2 ^ (Nat.log2 n - 52) * 2 ^ (Nat.log2 n - 52) ≤ round n ∧
      round n ≤ (n / 2 ^ (Nat.log2 n - 52) + 1) * 2 ^ (Nat.log2 n - 52) := by
  have hle : n / 2 ^ (Nat.log2 n - 52) * 2 ^ (Nat.log2 n - 52) ≤
      (n / 2 ^ (Nat.log2 n - 52) + 1) * 2 ^ (Nat.log2 n - 52) :=
    Nat.mul_le_mul_right _ (Nat.le_succ _)
  rw [round]
  split
  · exact ⟨hle, Nat.le_refl _⟩
  · exact ⟨Nat.le_refl _, hle⟩

theorem two_pow_log2_le_round {n : Nat} (hn : n ≠ 0) : 2 ^ Nat.log2 n ≤ round n := by
  have hunit : 2 ^ Nat.log2 n = 2 ^ (Nat.log2 n - (Nat.log2 n - 52)) * 2 ^ (Nat.log2 n - 52) := by
    rw [← Nat.pow_add]
    congr 1
    omega
  refine Nat.le_trans ?_ (round_bounds n).1
  rw [hunit]
  refine Nat.mul_le_mul_right _ ((Nat.le_div_iff_mul_le (Nat.two_pow_pos _)).mpr ?_)
  rw [← hunit]
  exact Nat.log2_self_le hn

theorem round_le_two_pow (n : Nat) : round n ≤ 2 ^ (Nat.log2 n + 1) := by
  have hunit : 2 ^ (Nat.log2 n + 1) =
      2 ^ (Nat.log2 n - 52) * 2 ^ (Nat.log2 n + 1 - (Nat.log2 n - 52)) := by
    rw [← Nat.pow_add]
    congr 1
    omega
  have hlt : n / 2 ^ (Nat.log2 n - 52) < 2 ^ (Nat.log2 n + 1 - (Nat.log2 n - 52)) := by
    apply Nat.div_lt_of_lt_mul
    rw [← hunit]
    exact Nat.lt_log2_self
  refine Nat.le_trans (round_bounds n).2 ?_
  rw [hunit, Nat.mul_comm]
  exact Nat.mul_le_mul_left _ hlt

/-- Rounding keeps the order. -/
theorem round_le_round {n m : Nat} (h : n ≤ m) : round n ≤ round m := by
  by_cases hn : n = 0
  · rw [hn]
    exact Nat.zero_le _
  have hm : m ≠ 0 := by omega
  have hlog : Nat.log2 n ≤ Nat.log2 m := (Nat.le_log2 hm).mpr ((Nat.log2_self_le hn).trans h)
  rcases Nat.eq_or_lt_of_le hlog with heq | hlt
  · have hlow := (round_bounds m).1
    have hhigh := (round_bounds n).2
    rw [heq] at hhigh
    rcases Nat.eq_or_lt_of_le (Nat.div_le_div_right (c := 2 ^ (Nat.log2 m - 52)) h) with
      hdown | hdown
    · have hrest : n % 2 ^ (Nat.log2 m - 52) ≤ m % 2 ^ (Nat.log2 m - 52) := by
        have hn := Nat.div_add_mod n (2 ^ (Nat.log2 m - 52))
        have hm := Nat.div_add_mod m (2 ^ (Nat.log2 m - 52))
        rw [hdown] at hn
        omega
      rw [round, round, heq, hdown]
      split
      · rw [if_pos (by omega)]
      · split
        · exact Nat.mul_le_mul_right _ (Nat.le_succ _)
        · exact Nat.le_refl _
    · exact hhigh.trans ((Nat.mul_le_mul_right _ hdown).trans hlow)
  · exact (round_le_two_pow n).trans
      ((Nat.pow_le_pow_right (by decide) hlt).trans (two_pow_log2_le_round hm))

/-- The bits of a rounded number lie between those of the powers of two around it. -/
theorem natBits_bounds {n : Nat} (hn : n ≠ 0) :
    (Nat.log2 (round n) + 1023) * 2 ^ 52 ≤ natBits n ∧
      natBits n < (Nat.log2 (round n) + 1024) * 2 ^ 52 := by
  have hround : round n ≠ 0 := by
    have hle := two_pow_log2_le_round hn
    have hpos := Nat.two_pow_pos (Nat.log2 n)
    omega
  have hlow : 2 ^ 52 ≤ round n * 2 ^ 52 / 2 ^ Nat.log2 (round n) := by
    rw [Nat.le_div_iff_mul_le (Nat.two_pow_pos _), Nat.mul_comm]
    exact Nat.mul_le_mul_right _ (Nat.log2_self_le hround)
  have hhigh : round n * 2 ^ 52 / 2 ^ Nat.log2 (round n) < 2 ^ 53 := by
    apply Nat.div_lt_of_lt_mul
    have hlt := Nat.lt_log2_self (n := round n)
    rw [Nat.pow_succ] at hlt
    have hmul := Nat.mul_lt_mul_of_pos_right hlt (Nat.two_pow_pos 52)
    calc round n * 2 ^ 52 < 2 ^ Nat.log2 (round n) * 2 * 2 ^ 52 := hmul
      _ = 2 ^ Nat.log2 (round n) * 2 ^ 53 := by
          rw [Nat.mul_assoc, show 2 * 2 ^ 52 = 2 ^ 53 from rfl]
  rw [natBits, if_neg hn]
  omega

theorem natBits_le_natBits {n m : Nat} (h : n ≤ m) : natBits n ≤ natBits m := by
  by_cases hn : n = 0
  · rw [hn]
    exact Nat.zero_le _
  have hm : m ≠ 0 := by omega
  have hround := round_le_round h
  have hnround : round n ≠ 0 := by
    have hle := two_pow_log2_le_round hn
    have hpos := Nat.two_pow_pos (Nat.log2 n)
    omega
  have hlog : Nat.log2 (round n) ≤ Nat.log2 (round m) :=
    (Nat.le_log2 (by omega)).mpr ((Nat.log2_self_le hnround).trans hround)
  rcases Nat.eq_or_lt_of_le hlog with heq | hlt
  · rw [natBits, natBits, if_neg hn, if_neg hm, heq]
    have hdiv := Nat.div_le_div_right (c := 2 ^ Nat.log2 (round m))
      (Nat.mul_le_mul_right (2 ^ 52) hround)
    omega
  · have hhigh := (natBits_bounds hn).2
    have hlow := (natBits_bounds hm).1
    have hmul := Nat.mul_le_mul_right (2 ^ 52) (Nat.succ_le_of_lt hlt)
    omega

/-- An integer of 64 bits is a finite double. -/
theorem natBits_lt {n : Nat} (h : n ≤ 2 ^ 63) : natBits n < 0x7FF0000000000000 := by
  have hlast : natBits (2 ^ 63) < 0x7FF0000000000000 := by decide +kernel
  exact Nat.lt_of_le_of_lt (natBits_le_natBits h) hlast

theorem magnitude_ofInt {i : Int} (h : i.natAbs ≤ 2 ^ 63) :
    (ofInt i).magnitude = natBits i.natAbs := by
  have hlt := natBits_lt h
  rw [magnitude, ofInt]
  split
  · rw [UInt64.toNat_ofNat']
    omega
  · rw [UInt64.toNat_ofNat']
    omega

theorem isNaN_ofInt {i : Int} (h : i.natAbs ≤ 2 ^ 63) : (ofInt i).isNaN = false := by
  have hlt := natBits_lt h
  rw [isNaN, magnitude_ofInt h]
  exact decide_eq_false (by omega)

theorem rank_ofInt {i : Int} (h : i.natAbs ≤ 2 ^ 63) :
    (ofInt i).rank = if i < 0 then -(natBits i.natAbs : Int) else natBits i.natAbs := by
  have hlt := natBits_lt h
  rw [rank, magnitude_ofInt h, ofInt]
  dsimp only
  rw [UInt64.toNat_ofNat']
  split
  · rw [if_neg (by omega)]
  · rw [if_pos (by omega)]

/-- The doubles of integers are in the order of the integers. -/
theorem rank_ofInt_le {i j : Int} (hi : i.natAbs ≤ 2 ^ 63) (hj : j.natAbs ≤ 2 ^ 63) (h : i ≤ j) :
    (ofInt i).rank ≤ (ofInt j).rank := by
  rw [rank_ofInt hi, rank_ofInt hj]
  split
  next hineg =>
    split
    next hjneg =>
      have hle := natBits_le_natBits (show j.natAbs ≤ i.natAbs by omega)
      omega
    next => omega
  next hineg =>
    rw [if_neg (by omega)]
    have hle := natBits_le_natBits (show i.natAbs ≤ j.natAbs by omega)
    omega

end VedDb.F64
