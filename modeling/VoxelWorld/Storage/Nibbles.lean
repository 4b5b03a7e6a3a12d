import VoxelWorld.Storage.Blocks

/-!
# Storage.Nibbles — half a byte for each cell

`NibbleArray` packs two light levels into a byte, the cell with the even number in the
low half. Levels above 15 are stored as 15. If the number of cells is odd, the high
half of the last byte belongs to no cell, and writing a cell leaves it alone.
-/

namespace VoxelWorld

/-- The brightest light. -/
def maxLight : Nat := 15

/-! ## Two halves of a byte -/

namespace Nibble

@[inline] def low (b : UInt8) : Nat := b.toNat % 16

@[inline] def high (b : UInt8) : Nat := b.toNat / 16

@[inline] def withLow (b : UInt8) (v : Nat) : UInt8 := UInt8.ofNat (b.toNat / 16 * 16 + v)

@[inline] def withHigh (b : UInt8) (v : Nat) : UInt8 := UInt8.ofNat (v * 16 + b.toNat % 16)

theorem low_withLow (b : UInt8) {v : Nat} (h : v ≤ 15) : low (withLow b v) = v := by
  have := b.toNat_lt
  simp only [low, withLow, UInt8.toNat_ofNat']
  omega

theorem high_withLow (b : UInt8) {v : Nat} (h : v ≤ 15) : high (withLow b v) = high b := by
  have := b.toNat_lt
  simp only [high, withLow, UInt8.toNat_ofNat']
  omega

theorem high_withHigh (b : UInt8) {v : Nat} (h : v ≤ 15) : high (withHigh b v) = v := by
  have := b.toNat_lt
  simp only [high, withHigh, UInt8.toNat_ofNat']
  omega

theorem low_withHigh (b : UInt8) (v : Nat) : low (withHigh b v) = low b := by
  have := b.toNat_lt
  simp only [low, withHigh, UInt8.toNat_ofNat']
  omega

end Nibble

/-! ## The array -/

/-- The light levels of a chunk. -/
structure NibbleArray (d : Dims) where
  bytes : Array UInt8
  size_eq : bytes.size = (d.cells + 1) / 2

namespace NibbleArray

variable {d : Dims}

/-- All dark. -/
def new (d : Dims) : Checked (NibbleArray d) :=
  match hv : d.volume with
  | .error e => .error e
  | .ok n =>
    match hb : zeroBytes ((n + 1) / 2) with
    | .error e => .error e
    | .ok bytes => .ok ⟨bytes, (size_of_zeroBytes hb).trans (by rw [Dims.volume_eq_ok hv])⟩

theorem byte_lt (a : NibbleArray d) {x y z : Int} {i : Nat} (h : d.index? x y z = some i) :
    i / 2 < a.bytes.size := by
  have := Dims.index?_lt h
  rw [a.size_eq]
  omega

@[inline] def get? (a : NibbleArray d) (x y z : Int) : Option Nat :=
  match h : d.index? x y z with
  | none => none
  | some i =>
    have := a.byte_lt h
    let b := a.bytes[i / 2]
    some (if i % 2 = 0 then Nibble.low b else Nibble.high b)

/-- The array with one cell written, at most as bright as `maxLight`. -/
@[inline] def set (a : NibbleArray d) (x y z : Int) (v : Nat) : NibbleArray d :=
  match d.index? x y z with
  | none => a
  | some i =>
    let v := min v maxLight
    ⟨a.bytes.modify (i / 2) fun b =>
      if i % 2 = 0 then Nibble.withLow b v else Nibble.withHigh b v, by simp [a.size_eq]⟩

/-- Writes a cell and gives what it held before. -/
def replace (a : NibbleArray d) (x y z : Int) (v : Nat) : Option Nat × NibbleArray d :=
  (a.get? x y z, a.set x y z v)

/-- The array with every half byte, used or not, at one level. -/
def fill (a : NibbleArray d) (v : Nat) : NibbleArray d :=
  let v := min v maxLight
  ⟨Array.replicate a.bytes.size (UInt8.ofNat (v * 16 + v)), by simp [a.size_eq]⟩

/-- Writes one byte by its number; refused past the end. -/
def setByte? (a : NibbleArray d) (i : Nat) (v : UInt8) : Option (NibbleArray d) :=
  if i < a.bytes.size then some ⟨a.bytes.set! i v, by simp [a.size_eq]⟩ else none

/-- The array that holds the given bytes, if their number fits. -/
def ofBytes? (bytes : Array UInt8) : Option (NibbleArray d) :=
  if h : bytes.size = (d.cells + 1) / 2 then some ⟨bytes, h⟩ else none

end NibbleArray

end VoxelWorld
