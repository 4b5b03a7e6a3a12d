/-!
# Save.Base36 — numbers in file names

A coordinate is written with the digits `0` to `9` and `a` to `z`, after a minus sign if
it is negative, and without leading zeros.
-/

namespace VoxelWorld.Base36

/-- The digit of a value below 36. -/
def digit (n : Nat) : Char := if n < 10 then Char.ofNat (48 + n) else Char.ofNat (87 + n)

/-- The digits of a number, the last one first; none for zero. -/
def digitsReversed (n : Nat) : List Char :=
  if h : n = 0 then [] else digit (n % 36) :: digitsReversed (n / 36)
termination_by n
decreasing_by omega

/-- The digits of a number in the order in which they are written. -/
def magnitude (n : Nat) : List Char := if n = 0 then ['0'] else (digitsReversed n).reverse

/-- The characters of a number with its sign. -/
def chars (v : Int) : List Char :=
  if v < 0 then '-' :: magnitude v.natAbs else magnitude v.natAbs

/-- The written form of a number. -/
def encode (v : Int) : String := String.ofList (chars v)

end VoxelWorld.Base36
