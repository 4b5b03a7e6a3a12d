import VoxelWorld.Checked
import VoxelWorld.Geometry

/-!
# Generation.Noise — smooth noise in the plane

The value at a point is the sum over the corners of the simplex triangle around it: each
corner has a gradient, chosen by a hash of its grid place, and fades out with distance.

1. `gradient` picks a gradient by hash and takes its product with an offset.
2. `Noise.value` is the noise at a point, about between minus one and one.

All steps are in single precision and in the stated order.
-/

namespace VoxelWorld

/-! ## Gradients -/

namespace Gradient

def a : Float32 := 0.130526192220052

def b : Float32 := 0.99144486137381

def c : Float32 := 0.38268343236509

def d : Float32 := 0.923879532511287

def e : Float32 := 0.608761429008721

def f : Float32 := 0.793353340291235

/-- Twenty-four directions round the circle. -/
def circle : List Float32 :=
  [a, b, c, d, e, f, f, e, d, c, b, a, b, -a, d, -c, f, -e, e, -f, c, -d, a, -b,
    -a, -b, -c, -d, -e, -f, -f, -e, -d, -c, -b, -a, -b, a, -d, c, -f, e, -e, f, -c, d, -a, b]

/-- Eight directions that fill the table up. -/
def rest : List Float32 := [c, d, d, c, d, -c, c, -d, -c, -d, -d, -c, -d, c, -c, d]

/-- The 128 directions, two numbers each. -/
def table : Array Float32 :=
  (circle ++ circle ++ circle ++ circle ++ circle ++ rest).toArray

end Gradient

/-- The hash of a grid place: an even number below 256. -/
def gradientIndex (seed p q : Int32) : Nat :=
  let h := (seed ^^^ p ^^^ q) * 0x27d4eb2d
  let h := h ^^^ (h >>> 15)
  (h &&& 254).toInt.toNat

/-- The product of the gradient at a grid place with an offset. -/
def gradient (seed p q : Int32) (dx dy : Float32) : Float32 :=
  let h := gradientIndex seed p q
  dx * Gradient.table.getD h 0 + dy * Gradient.table.getD (h + 1) 0

/-! ## The noise -/

/-- A noise: its seed and how fast it varies. -/
structure Noise where
  seed : Int32
  frequency : Float32

namespace Noise

def sqrtThree : Float32 := 1.7320508075688772935274463415059

/-- Skews the plane so that the triangles become halves of unit squares. -/
def skew : Float32 := 0.5 * (sqrtThree - 1)

/-- Undoes `skew`. -/
def unskew : Float32 := (3 - sqrtThree) / 6

def primeX : Int32 := 501125321

def primeY : Int32 := 1136930381

/-- The whole part of a number, held to 32 bits; one less for a negative number, which is a
fault at the least integer of all. -/
def wholePart (x : Float32) : Checked Int32 := do
  if 0 ≤ x then return x.toInt32
  else return Int32.ofInt (← checkCoord (x.toInt32.toInt - 1))

/-- The share of one corner: the fourth power of how near it is, times its gradient. -/
def corner (seed p q : Int32) (near dx dy : Float32) : Float32 :=
  if near ≤ 0 then 0 else (near * near) * (near * near) * gradient seed p q dx dy

/-- The noise at a point; a point whose grid place has no number is a fault. -/
def value (n : Noise) (x y : Float32) : Checked Float32 := do
  let x := x * n.frequency
  let y := y * n.frequency
  let t := (x + y) * skew
  let x := x + t
  let y := y + t
  let g := unskew
  let i ← wholePart x
  let j ← wholePart y
  let xi := x - i.toFloat32
  let yi := y - j.toFloat32
  let t := (xi + yi) * g
  let x0 := xi - t
  let y0 := yi - t
  let i := i * primeX
  let j := j * primeY
  let near0 := 0.5 - x0 * x0 - y0 * y0
  let n0 := corner n.seed i j near0 x0 y0
  let near2 := (2 * (1 - 2 * g) * (1 / g - 2)) * t + ((-2 * (1 - 2 * g) * (1 - 2 * g)) + near0)
  let n2 := corner n.seed (i + primeX) (j + primeY) near2 (x0 + (2 * g - 1)) (y0 + (2 * g - 1))
  let n1 :=
    if x0 < y0 then
      let x1 := x0 + g
      let y1 := y0 + (g - 1)
      corner n.seed i (j + primeY) (0.5 - x1 * x1 - y1 * y1) x1 y1
    else
      let x1 := x0 + (g - 1)
      let y1 := y0 + g
      corner n.seed (i + primeX) j (0.5 - x1 * x1 - y1 * y1) x1 y1
  return (n0 + n1 + n2) * 99.83685446303647

end Noise

end VoxelWorld
