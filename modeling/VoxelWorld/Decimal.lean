/-!
# Decimal — decimal numbers as floating-point numbers

A decimal number `m * 10 ^ e` is read as the nearest number of a binary format; of
two equally near ones the even one is taken.

1. `BinaryFormat` is a format: its precision and the exponent of its least number.
2. `BinaryFormat.nearest` rounds an exact fraction and gives the bits.
3. `Decimal.toFloat` and `Decimal.toFloat32` are the two formats in use.
-/

namespace VoxelWorld

/-- A binary floating-point format. -/
structure BinaryFormat where
  /-- Number of significant bits. -/
  precision : Nat
  /-- The least positive number is `2 ^ (-leastExponent)`. -/
  leastExponent : Nat
  /-- The bits of infinity. -/
  infinity : Nat
  /-- Decimal magnitudes from this one on are infinite. -/
  hugeDecimal : Int
  /-- Decimal magnitudes below this one are zero. -/
  tinyDecimal : Int

namespace BinaryFormat

def single : BinaryFormat := ⟨24, 149, 0x7f800000, 41, -48⟩

def double : BinaryFormat := ⟨53, 1074, 0x7ff0000000000000, 311, -326⟩

/-- The quotient of two naturals, rounded to the nearest; a tie goes to the even one. -/
def roundDiv (num den : Nat) : Nat :=
  let q := num / den
  let r := num % den
  if 2 * r > den ∨ (2 * r = den ∧ q % 2 = 1) then q + 1 else q

/-- The fraction `num / den` in units of `2 ^ e`, as a fraction again. -/
def inUnits (num den : Nat) (e : Int) : Nat × Nat :=
  if e < 0 then (num * Nat.pow 2 (-e).toNat, den) else (num, den * Nat.pow 2 e.toNat)

/-- The bits of the number nearest to the positive fraction `num / den`. The unit in the
last place is chosen so that the quotient has `precision` bits; a quotient rounded up to
one bit more carries into the exponent, which is what the sum of the two fields does. -/
def nearest (f : BinaryFormat) (num den : Nat) : Nat :=
  let least : Int := -f.leastExponent
  let guess : Int := max least ((num.log2 : Int) - den.log2 - f.precision)
  let (n, d) := inUnits num den guess
  let unit := if n / d ≥ Nat.pow 2 f.precision then guess + 1 else guess
  let (n, d) := inUnits num den unit
  min f.infinity ((unit - least).toNat * Nat.pow 2 (f.precision - 1) + roundDiv n d)

/-- The bits of the number nearest to `m * 10 ^ e`. -/
def nearestDecimal (f : BinaryFormat) (m : Nat) (e : Int) : Nat :=
  let magnitude := e + (Nat.toDigits 10 m).length
  if m = 0 ∨ magnitude < f.tinyDecimal then 0
  else if f.hugeDecimal ≤ magnitude then f.infinity
  else if e < 0 then f.nearest m (Nat.pow 10 (-e).toNat)
  else f.nearest (m * Nat.pow 10 e.toNat) 1

end BinaryFormat

/-- The number `m * 10 ^ e`, with a sign. -/
structure Decimal where
  negative : Bool
  m : Nat
  e : Int
deriving DecidableEq, Repr, Inhabited

namespace Decimal

def toFloat (d : Decimal) : Float :=
  let x := Float.ofBits (UInt64.ofNat (BinaryFormat.double.nearestDecimal d.m d.e))
  if d.negative then -x else x

def toFloat32 (d : Decimal) : Float32 :=
  let x := Float32.ofBits (UInt32.ofNat (BinaryFormat.single.nearestDecimal d.m d.e))
  if d.negative then -x else x

end Decimal

end VoxelWorld
