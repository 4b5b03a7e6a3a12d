/-!
# Geometry — vectors and boxes in single precision

1. `Vec3`: componentwise arithmetic, the dot product and the length.
2. `planarDistance`: a distance in the horizontal plane, in double precision.
3. `Aabb`: an axis-aligned box given by its centre and half extents.

Every operation rounds each step to single precision and none is reassociated.
-/

namespace VoxelWorld

/-- A point or direction in space. -/
structure Vec3 where
  x : Float32
  y : Float32
  z : Float32
deriving Inhabited

namespace Vec3

def zero : Vec3 := ⟨0, 0, 0⟩

protected def add (a b : Vec3) : Vec3 := ⟨a.x + b.x, a.y + b.y, a.z + b.z⟩

protected def sub (a b : Vec3) : Vec3 := ⟨a.x - b.x, a.y - b.y, a.z - b.z⟩

instance : Add Vec3 := ⟨Vec3.add⟩

instance : Sub Vec3 := ⟨Vec3.sub⟩

/-- The vector with every component multiplied by a number. -/
def scale (a : Vec3) (s : Float32) : Vec3 := ⟨a.x * s, a.y * s, a.z * s⟩

/-- The vector with every component divided by a number. -/
def shrink (a : Vec3) (s : Float32) : Vec3 := ⟨a.x / s, a.y / s, a.z / s⟩

def dot (a b : Vec3) : Float32 := a.x * b.x + a.y * b.y + a.z * b.z

def cross (a b : Vec3) : Vec3 :=
  ⟨a.y * b.z - a.z * b.y, a.z * b.x - a.x * b.z, a.x * b.y - a.y * b.x⟩

def length (a : Vec3) : Float32 := (a.dot a).sqrt

/-- Equality of the components as numbers: zeros of either sign agree, a NaN never does. -/
protected def beq (a b : Vec3) : Bool := a.x == b.x && a.y == b.y && a.z == b.z

instance : BEq Vec3 := ⟨Vec3.beq⟩

/-- Distance to the vertical line through `(x, z)`; the height plays no part. -/
def planarDistance (a : Vec3) (x z : Float) : Float :=
  let dx := a.x.toFloat - x
  let dz := a.z.toFloat - z
  (dx * dx + dz * dz).sqrt

end Vec3

/-- The nearest single-precision number to a size. -/
@[inline] def sizeToFloat (n : Nat) : Float32 := (UInt64.ofNat n).toFloat32

/-- The nearest single-precision number to an integer of 32 bits. Rounding is the same on both
sides of zero, so the size is rounded and the sign put on it. -/
@[inline] def coordToFloat (n : Int) : Float32 :=
  if n < 0 then -sizeToFloat n.natAbs else sizeToFloat n.natAbs

/-- The integer part of a number, held to the range of a coordinate; zero for a NaN. -/
@[inline] def floatToCoord (x : Float32) : Int := x.toInt32.toInt

/-- A number that orders floating-point numbers by value, negative zero before zero and
NaNs at the ends. -/
def totalKey (x : Float) : Int :=
  let bits := x.toBits.toNat
  if bits < 9223372036854775808 then bits else 9223372036854775807 - (bits : Int)

/-- An axis-aligned box. -/
structure Aabb where
  center : Vec3
  extents : Vec3
deriving Inhabited

namespace Aabb

def min (b : Aabb) : Vec3 := b.center - b.extents

def max (b : Aabb) : Vec3 := b.center + b.extents

/-- Whether the box, its faces included, holds a point. -/
def contains (b : Aabb) (p : Vec3) : Bool :=
  let lo := b.min
  let hi := b.max
  lo.x ≤ p.x && p.x ≤ hi.x && lo.y ≤ p.y && p.y ≤ hi.y && lo.z ≤ p.z && p.z ≤ hi.z

end Aabb

end VoxelWorld
