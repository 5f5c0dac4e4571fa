import WideColumn.Number.Decimal

/-!
Floating-point numbers as their bits: widening, the total order on bits, and literal text.
-/
namespace WideColumn

/-- A 32-bit floating-point number, told apart by its bits. -/
structure Binary32 where
  bits : UInt32
  deriving DecidableEq

/-- A 64-bit floating-point number, told apart by its bits. -/
structure Binary64 where
  bits : UInt64
  deriving DecidableEq

namespace Binary32

def sign (x : Binary32) : Nat := x.bits.toNat / 0x8000_0000
def exponentField (x : Binary32) : Nat := x.bits.toNat / 0x80_0000 % 0x100
def fraction (x : Binary32) : Nat := x.bits.toNat % 0x80_0000

/-- Rank in the total order on bits: negative numbers by falling, others by rising bits. -/
def rank (x : Binary32) : Nat :=
  if x.bits.toNat < 0x8000_0000 then x.bits.toNat + 0x8000_0000 else 0xffff_ffff - x.bits.toNat

/-- Exponent and fraction fields in the wider format. A subnormal number becomes a normal one, and
every NaN a quiet one with the same leading payload. -/
def widenFields (x : Binary32) : Nat × Nat :=
  let f := x.fraction
  if x.exponentField = 0 then
    if f = 0 then (0, 0) else (Nat.log2 f + 874, (f - 1 <<< Nat.log2 f) <<< (52 - Nat.log2 f))
  else if x.exponentField = 255 then
    (2047, if f = 0 then 0 else if f < 0x40_0000 then f <<< 29 + 0x8_0000_0000_0000 else f <<< 29)
  else (x.exponentField + 896, f <<< 29)

/-- The 64-bit number of the same value. -/
def widen (x : Binary32) : Binary64 :=
  let (e, f) := x.widenFields
  ⟨.ofNat (x.sign <<< 63 + e <<< 52 + f)⟩

end Binary32

namespace Binary64

def isNegative (x : Binary64) : Bool := 0x8000_0000_0000_0000 ≤ x.bits.toNat
def exponentField (x : Binary64) : Nat := x.bits.toNat / 0x10_0000_0000_0000 % 0x800
def fraction (x : Binary64) : Nat := x.bits.toNat % 0x10_0000_0000_0000

/-- Rank in the total order on bits: negative numbers by falling, others by rising bits. -/
def rank (x : Binary64) : Nat :=
  if x.bits.toNat < 0x8000_0000_0000_0000 then x.bits.toNat + 0x8000_0000_0000_0000
  else 0xffff_ffff_ffff_ffff - x.bits.toNat

/-- The magnitude of a finite number. -/
def dyadic (x : Binary64) : Dyadic :=
  if x.exponentField = 0 then ⟨x.fraction, -1074, false⟩
  else ⟨0x10_0000_0000_0000 + x.fraction, (x.exponentField : Int) - 1075,
    x.fraction = 0 ∧ 1 < x.exponentField⟩

def magnitude (x : Binary64) : List Char :=
  if x.exponentField = 2047 then "Infinity".toList
  else if x.exponentField = 0 ∧ x.fraction = 0 then "0.0".toList
  else x.dyadic.shortest.text Decimal.literalLayout

/-- The fewest digits that read back, as a literal. -/
def literal (x : Binary64) : List Char :=
  if x.exponentField = 2047 ∧ x.fraction ≠ 0 then "NaN".toList
  else if x.isNegative then '-' :: x.magnitude
  else x.magnitude

end Binary64
end WideColumn
