/-!
# Text.Hex — numbers and bytes in hexadecimal

1. `digits` writes a number with a fixed number of lower-case digits.
2. `ofBytes` writes bytes with two digits each and `toBytes?` reads them back.
-/

namespace VoxelWorld.Hex

def digit (n : Nat) : Char := Char.ofNat (if n < 10 then 48 + n else 87 + n)

/-- The last `width` digits of a number. -/
def digits (width n : Nat) : List Char :=
  (List.range width).map fun i => digit (n / Nat.pow 16 (width - 1 - i) % 16)

def fixed (width n : Nat) : String := String.ofList (digits width n)

/-- Adds the two digits of a byte to a text. -/
def pushByte (s : String) (b : UInt8) : String :=
  (s.push (digit (b.toNat / 16))).push (digit (b.toNat % 16))

def ofBytes (bytes : Array UInt8) : String := bytes.foldl pushByte ""

/-- The value of a digit of either case. -/
def value? (c : Char) : Option Nat :=
  if '0' ≤ c ∧ c ≤ '9' then some (c.toNat - '0'.toNat)
  else if 'a' ≤ c ∧ c ≤ 'f' then some (c.toNat - 'a'.toNat + 10)
  else if 'A' ≤ c ∧ c ≤ 'F' then some (c.toNat - 'A'.toNat + 10)
  else none

/-- The number of a text of digits. -/
def toNat? (cs : List Char) : Option Nat := cs.foldlM (fun n c => (n * 16 + ·) <$> value? c) 0

/-- The bytes of a text of pairs of digits. -/
def toBytes? : List Char → Option (List UInt8)
  | [] => some []
  | [_] => none
  | a :: b :: cs => do
    let high ← value? a
    let low ← value? b
    let rest ← toBytes? cs
    return UInt8.ofNat (high * 16 + low) :: rest

end VoxelWorld.Hex
