/-!
# Checked — arithmetic of a stated width

Block and chunk positions are signed 32-bit integers, sizes and counts are
unsigned 64-bit ones. Both are kept as exact integers, and a result that does
not fit its width is a fault:

1. **Faults**: the four ways in which a computation stops without a result.
2. **Coordinates**: `checkCoord` admits exactly the integers of 32 bits.
3. **Sizes**: `checkSize` admits exactly the naturals below `2 ^ 64`.
-/

namespace VoxelWorld

/-- Why a computation stops without a result. -/
inductive Fault
  /-- A sum, difference, product or quotient leaves its width. -/
  | overflow
  | divisionByZero
  /-- An element past the end of an array is asked for. -/
  | outOfBounds
  /-- An array of more than `2 ^ 63 - 1` bytes is asked for. -/
  | capacity
deriving DecidableEq, Repr, Inhabited

/-- A result, or the fault that prevented it. -/
abbrev Checked := Except Fault

/-! ## Coordinates -/

def coordMin : Int := -2147483648

def coordMax : Int := 2147483647

/-- The integers that a coordinate can hold. -/
@[reducible] def FitsCoord (n : Int) : Prop :=
  -2147483648 ≤ n ∧ n ≤ 2147483647

@[inline] def checkCoord (n : Int) : Checked Int :=
  if FitsCoord n then .ok n else .error .overflow

/-- Division rounding down for a positive divisor; the remainder is never negative. -/
@[inline] def divCoord (a b : Int) : Checked Int :=
  if b = 0 then .error .divisionByZero else checkCoord (a / b)

/-- The coordinate with the same low 32 bits as a size. -/
@[inline] def sizeAsCoord (n : Nat) : Int :=
  if n < 2147483648 then n else Int.bmod n 4294967296

theorem checkCoord_of_fits {n : Int} (h : FitsCoord n) : checkCoord n = .ok n :=
  if_pos h

theorem checkCoord_eq_ok {n m : Int} : checkCoord n = .ok m ↔ FitsCoord n ∧ m = n := by
  unfold checkCoord
  by_cases h : FitsCoord n
  · rw [if_pos h, Except.ok.injEq, eq_comm]
    exact (and_iff_right h).symm
  · rw [if_neg h]
    exact ⟨nofun, fun h' => absurd h'.1 h⟩

theorem sizeAsCoord_of_lt {n : Nat} (h : n < 2147483648) : sizeAsCoord n = n :=
  if_pos h

/-! ## Sizes -/

@[inline] def checkSize (n : Nat) : Checked Nat :=
  if n < 18446744073709551616 then .ok n else .error .overflow

/-- The difference of two sizes, which is never negative. -/
@[inline] def subSize (a b : Nat) : Checked Nat :=
  if b ≤ a then .ok (a - b) else .error .overflow

theorem checkSize_of_lt {n : Nat} (h : n < 18446744073709551616) : checkSize n = .ok n :=
  if_pos h

theorem checkSize_eq_ok {n m : Nat} :
    checkSize n = .ok m ↔ n < 18446744073709551616 ∧ m = n := by
  unfold checkSize
  by_cases h : n < 18446744073709551616
  · rw [if_pos h, Except.ok.injEq, eq_comm]
    exact (and_iff_right h).symm
  · rw [if_neg h]
    exact ⟨nofun, fun h' => absurd h'.1 h⟩

theorem subSize_eq_ok {a b c : Nat} : subSize a b = .ok c ↔ b ≤ a ∧ c = a - b := by
  unfold subSize
  by_cases h : b ≤ a
  · rw [if_pos h, Except.ok.injEq, eq_comm]
    exact (and_iff_right h).symm
  · rw [if_neg h]
    exact ⟨nofun, fun h' => absurd h'.1 h⟩

end VoxelWorld
