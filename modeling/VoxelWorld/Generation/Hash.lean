import VoxelWorld.Geometry

/-!
# Generation.Hash — random numbers by position

Random choices are made from a hash of the seed and the position, so what is generated
does not depend on the order in which chunks are visited.
-/

namespace VoxelWorld

/-- The low 32 bits of an integer. -/
@[inline] def wordOf (n : Int) : UInt32 := UInt32.ofNat (n % 4294967296).toNat

/-- The integer of 32 bits with sign that a word stands for. -/
@[inline] def signedOf (w : UInt32) : Int := w.toInt32.toInt

/-- A hash of a seed, a position in the plane and a salt that sets uses apart. -/
def hashAt (seed x z : Int) (salt : UInt32) : UInt32 :=
  let h := wordOf seed ^^^ (salt * 0x9E3779B9)
  let h := h ^^^ (wordOf x * 0x85EBCA6B)
  let h := ((h <<< 13) ||| (h >>> 19)) ^^^ (wordOf z * 0xC2B2AE35)
  let h := h ^^^ (h >>> 16)
  let h := h * 0x7FEB352D
  let h := h ^^^ (h >>> 15)
  let h := h * 0x846CA68B
  h ^^^ (h >>> 16)

/-- A hash as a number from zero up to, but not including, one. -/
def unitOf (h : UInt32) : Float32 := (h >>> 8).toFloat32 / 16777216

end VoxelWorld
