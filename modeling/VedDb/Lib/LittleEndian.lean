import Mathlib.Data.Nat.Basic
import Mathlib.Tactic.Ring

/-!
# Little-endian words and exact reads

Fixed-width little-endian encodings of natural numbers as byte strings, and the `read_exact`
primitive of a byte stream: take a given number of bytes off the front, or report that the stream
ended first.  Both directions are stated over an arbitrary width, so one lemma serves every
integer size of a binary format.
-/

namespace LittleEndian

/-- A byte string. -/
abbrev Bytes := List UInt8

/-- The `w` low-order bytes of `n`, least significant first.  Bits beyond `8 * w` are lost, as in
a narrowing cast. -/
def leBytes : Nat → Nat → Bytes
  | 0, _ => []
  | w + 1, n => UInt8.ofNat (n % 256) :: leBytes w (n / 256)

/-- The value of a byte string read least significant byte first. -/
def ofLeBytes : Bytes → Nat
  | [] => 0
  | b :: bs => b.toNat + 256 * ofLeBytes bs

@[simp] theorem leBytes_length (w n : Nat) : (leBytes w n).length = w := by
  induction w generalizing n with
  | zero => rfl
  | succ w ih => simp [leBytes, ih]

-- Decoding the `w`-byte encoding of `n` recovers `n` modulo the width.
theorem ofLeBytes_leBytes (w n : Nat) : ofLeBytes (leBytes w n) = n % 256 ^ w := by
  induction w generalizing n with
  | zero => simp [leBytes, ofLeBytes, Nat.mod_one]
  | succ w ih =>
    have hbyte : (UInt8.ofNat (n % 256)).toNat = n % 256 := by
      simp only [UInt8.toNat_ofNat', Nat.reducePow, Nat.mod_mod]
    rw [leBytes, ofLeBytes, ih, hbyte, Nat.pow_succ, Nat.mul_comm (256 ^ w) 256,
      Nat.mod_mul]

theorem ofLeBytes_leBytes_of_lt {w n : Nat} (hn : n < 256 ^ w) :
    ofLeBytes (leBytes w n) = n := by
  rw [ofLeBytes_leBytes, Nat.mod_eq_of_lt hn]

theorem ofLeBytes_lt (bs : Bytes) : ofLeBytes bs < 256 ^ bs.length := by
  induction bs with
  | nil => decide
  | cons b bs ih =>
    have hb := b.toNat_lt
    rw [ofLeBytes, List.length_cons, Nat.pow_succ]
    omega

-- Every byte string is the encoding of the number it is read as.
theorem leBytes_ofLeBytes (bs : Bytes) : leBytes bs.length (ofLeBytes bs) = bs := by
  induction bs with
  | nil => rfl
  | cons b bs ih =>
    have hb := b.toNat_lt
    have hlow : (b.toNat + 256 * ofLeBytes bs) % 256 = b.toNat := by omega
    have hhigh : (b.toNat + 256 * ofLeBytes bs) / 256 = ofLeBytes bs := by omega
    rw [ofLeBytes, List.length_cons, leBytes, hlow, hhigh, ih, UInt8.ofNat_toNat]

/-- Take exactly `n` bytes off the front of a stream, or report end of stream. -/
def readExact (n : Nat) (bs : Bytes) : Option (Bytes × Bytes) :=
  if bs.length < n then none else some (bs.take n, bs.drop n)

theorem readExact_append (a b : Bytes) : readExact a.length (a ++ b) = some (a, b) := by
  unfold readExact
  rw [if_neg (by simp), List.take_left, List.drop_left]

theorem readExact_eq_none_iff {n : Nat} {bs : Bytes} :
    readExact n bs = none ↔ bs.length < n := by
  unfold readExact
  split <;> simp_all

theorem readExact_eq_some {n : Nat} {bs a b : Bytes} (h : readExact n bs = some (a, b)) :
    bs = a ++ b ∧ a.length = n := by
  unfold readExact at h
  split at h
  · cases h
  · rename_i hlen
    obtain ⟨rfl, rfl⟩ := Prod.mk.inj (Option.some.inj h)
    exact ⟨(List.take_append_drop n bs).symm, List.length_take_of_le (by omega)⟩

end LittleEndian
