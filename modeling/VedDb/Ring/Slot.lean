import Mathlib.Order.Interval.Finset.Nat
import VedDb.Document
import VedDb.Lib.Masks

/-!
# Slots of a ring

`ring/mod.rs`: a slot holds up to eight bytes, or where longer data lies in the arena.
-/

namespace VedDb

open LittleEndian (Bytes leBytes ofLeBytes)

structure Slot where
  len : UInt32
  dataOrOffset : UInt64
deriving DecidableEq

namespace Slot

def inlineSize : Nat := 8

def empty : Slot := { len := 0, dataOrOffset := 0 }

def inlineData (data : Bytes) : Option Slot :=
  if data.length ≤ inlineSize then
    some { len := UInt32.ofNat data.length, dataOrOffset := UInt64.ofNat (ofLeBytes data) }
  else none

def arenaOffset (len : UInt32) (offset : UInt64) : Slot := { len := len, dataOrOffset := offset }

end Slot

/-! ## Places -/

/-- The mask of a ring of `2 ^ bits` slots. -/
def ringMask (bits : Fin 64) : UInt64 := UInt64.ofNat (2 ^ bits.val - 1)

/-- The slot of the element with this number, counted from the first one pushed. -/
def place (bits : Fin 64) (k : Nat) : Fin (2 ^ bits.val) :=
  ⟨k % 2 ^ bits.val, Nat.mod_lt _ (Nat.two_pow_pos _)⟩

/-- `index & self.mask`, the slot of `slot_at`. -/
def slotAt (bits : Fin 64) (index : UInt64) : Fin (2 ^ bits.val) :=
  ⟨(index &&& ringMask bits).toNat, by
    rw [ringMask, toNat_and_low_bits]
    exact Nat.mod_lt _ (Nat.two_pow_pos _)⟩

theorem slotAt_eq (bits : Fin 64) (index : UInt64) : slotAt bits index = place bits index.toNat :=
  Fin.ext (toNat_and_low_bits bits index)

/-- Elements less than a lap apart have slots of their own. -/
theorem place_ne {bits : Fin 64} {i k : Nat} (hlt : i < k) (hlap : k < i + 2 ^ bits.val) :
    place bits i ≠ place bits k := by
  intro heq
  have hmod : i % 2 ^ bits.val = k % 2 ^ bits.val := congrArg Fin.val heq
  have hsame : i = k := Nat.mod_injOn_Ico i (2 ^ bits.val)
    (Finset.mem_coe.mpr (Finset.mem_Ico.mpr ⟨le_rfl, by omega⟩))
    (Finset.mem_coe.mpr (Finset.mem_Ico.mpr ⟨hlt.le, hlap⟩)) hmod
  omega

end VedDb
