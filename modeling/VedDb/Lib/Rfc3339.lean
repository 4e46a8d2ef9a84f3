import VedDb.Lib.LittleEndian

/-!
# Timestamps in RFC 3339

The text of an instant in UTC: its date in the Gregorian calendar, the time of day, as many digits
of the second's fraction as it needs in groups of three, and a `Z`.
-/

namespace VedDb

namespace Rfc3339

open LittleEndian (Bytes)

/-! ## Decimals -/

/-- The last digit of a number. -/
def digit (n : Nat) : UInt8 := UInt8.ofNat (48 + n % 10)

/-- The last digits of a number. -/
def digits : Nat → Nat → Bytes
  | 0, _ => []
  | w + 1, n => digits w (n / 10) ++ [digit n]

/-- All digits of a number, at least one. -/
def decimal (n : Nat) : Bytes := if n < 10 then [digit n] else decimal (n / 10) ++ [digit n]

@[simp] theorem length_digits (w n : Nat) : (digits w n).length = w := by
  induction w generalizing n with
  | zero => rfl
  | succ w ih => rw [digits, List.length_append, ih, List.length_singleton]

theorem digit_bounds (n : Nat) : 48 ≤ (digit n).toNat ∧ (digit n).toNat < 58 := by
  have hlt : n % 10 < 10 := Nat.mod_lt n (by decide)
  rw [digit, UInt8.toNat_ofNat']
  omega

/-- A text of visible characters. -/
def Visible (bytes : Bytes) : Prop := ∀ b ∈ bytes, 32 < b.toNat

theorem Visible.append {a b : Bytes} (ha : Visible a) (hb : Visible b) : Visible (a ++ b) :=
  List.forall_mem_append.mpr ⟨ha, hb⟩

theorem visible_digit (n : Nat) : Visible [digit n] := by
  rw [Visible, List.forall_mem_singleton]
  have hbounds := digit_bounds n
  omega

theorem visible_digits (w n : Nat) : Visible (digits w n) := by
  induction w generalizing n with
  | zero => exact List.forall_mem_nil _
  | succ w ih => exact (ih (n / 10)).append (visible_digit n)

theorem visible_decimal (n : Nat) : Visible (decimal n) := by
  induction n using decimal.induct with
  | case1 n hlt =>
    rw [decimal, if_pos hlt]
    exact visible_digit n
  | case2 n hge ih =>
    rw [decimal, if_neg hge]
    exact ih.append (visible_digit n)

/-! ## Dates -/

structure Date where
  year : Int
  month : Nat
  day : Nat
  deriving DecidableEq

/-- The date of a day counted from 1970-01-01, by way of years that begin in March and eras of four
hundred years. -/
def Date.ofDays (days : Int) : Date :=
  let z := days + 719468
  let dayOfEra := (z % 146097).toNat
  let yearOfEra :=
    (dayOfEra - dayOfEra / 1460 + dayOfEra / 36524 - dayOfEra / 146096) / 365
  let dayOfYear := dayOfEra - (365 * yearOfEra + yearOfEra / 4 - yearOfEra / 100)
  let march := (5 * dayOfYear + 2) / 153
  let month := if march < 10 then march + 3 else march - 9
  { year := yearOfEra + z / 146097 * 400 + if month ≤ 2 then 1 else 0
    month
    day := dayOfYear - (153 * march + 2) / 5 + 1 }

/-- Four digits, or a sign and at least four. -/
def yearText (year : Int) : Bytes :=
  if 0 ≤ year ∧ year ≤ 9999 then digits 4 year.toNat
  else
    (if year < 0 then 45 else 43) ::
      if year.natAbs < 1000 then digits 4 year.natAbs else decimal year.natAbs

/-- The fraction of a second: nothing, milliseconds, microseconds or nanoseconds. -/
def fractionText (nanos : Nat) : Bytes :=
  if nanos = 0 then []
  else if nanos % 1000000 = 0 then 46 :: digits 3 (nanos / 1000000)
  else if nanos % 1000 = 0 then 46 :: digits 6 (nanos / 1000)
  else 46 :: digits 9 nanos

/-- The text of an instant, in nanoseconds since 1970. -/
def text (instant : Int) : Bytes :=
  let seconds := instant / 1000000000
  let date := Date.ofDays (seconds / 86400)
  let second := (seconds % 86400).toNat
  yearText date.year ++ 45 :: digits 2 date.month ++ 45 :: digits 2 date.day ++
    84 :: digits 2 (second / 3600) ++ 58 :: digits 2 (second / 60 % 60) ++
    58 :: digits 2 (second % 60) ++ fractionText (instant % 1000000000).toNat ++ [90]

example : text 1709210096789000000 = "2024-02-29T12:34:56.789Z".toUTF8.data.toList := by
  decide +kernel

/-! ## Characters -/

theorem visible_cons {b : UInt8} {bytes : Bytes} (hb : 32 < b.toNat) (h : Visible bytes) :
    Visible (b :: bytes) :=
  List.forall_mem_cons.mpr ⟨hb, h⟩

theorem visible_yearText (year : Int) : Visible (yearText year) := by
  rw [yearText]
  split
  · exact visible_digits 4 _
  · refine visible_cons (by split <;> decide) ?_
    split
    · exact visible_digits 4 _
    · exact visible_decimal _

theorem visible_fractionText (nanos : Nat) : Visible (fractionText nanos) := by
  have hpoint (w n : Nat) : Visible (46 :: digits w n) :=
    visible_cons (by decide) (visible_digits w n)
  rw [fractionText]
  split
  · exact List.forall_mem_nil _
  · split
    · exact hpoint 3 _
    · split
      · exact hpoint 6 _
      · exact hpoint 9 _

theorem visible_text (instant : Int) : Visible (text instant) := by
  have hpart {b : UInt8} (hb : 32 < b.toNat) (n : Nat) : Visible (b :: digits 2 n) :=
    visible_cons hb (visible_digits 2 n)
  have hend : Visible [90] := visible_cons (by decide) (List.forall_mem_nil _)
  exact ((((((visible_yearText _).append (hpart (by decide) _)).append (hpart (by decide) _)).append
    (hpart (by decide) _)).append (hpart (by decide) _)).append (hpart (by decide) _)).append
    (visible_fractionText _) |>.append hend

end Rfc3339

end VedDb
