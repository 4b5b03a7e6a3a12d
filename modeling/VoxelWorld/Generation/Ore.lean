import VoxelWorld.Generation.Hash
import VoxelWorld.Generation.Passes

/-!
# Generation.Ore — veins in the stone

Each vein starts at a random cell and turns up to five cells next to it from stone into
ore. Nothing but stone is replaced.
-/

namespace VoxelWorld

/-- The veins of a world. -/
structure Ore where
  seed : Int
  veins : Nat
  stone : BlockId
  ore : BlockId

namespace Ore

def new (seed : Int) (veins : Nat) (reg : Registry) : Ore where
  seed
  veins
  stone := reg.idOrAir "stone"
  ore := reg.idOrAir "coal_ore"

/-- The remainder of a word by the low 32 bits of a side. -/
def within (h : UInt32) (side : Nat) : Checked Nat :=
  let m := side % 4294967296
  if m = 0 then .error .divisionByZero else .ok (h.toNat % m)

/-- The last place along a side, or a place one or zero steps on, whichever is less. -/
def stepWithin (place : Nat) (bit : UInt32) (side : Nat) : Checked Nat := do
  let last ← subSize side 1
  return min (place + bit.toNat) last

/-- One cell of a vein whose hash is `h`. -/
def placeOne {d : Dims} (o : Ore) (h : UInt32) (cx cy cz : Nat) (blocks : BlockArray d)
    (i : Nat) : Checked (BlockArray d) := do
  let step := hashAt o.seed (signedOf h) i 0x51DE
  let x := sizeAsCoord (← stepWithin cx (step &&& 1) d.x)
  let y := sizeAsCoord (← stepWithin cy ((step >>> 1) &&& 1) d.y)
  let z := sizeAsCoord (← stepWithin cz ((step >>> 2) &&& 1) d.z)
  if blocks.get x y z = o.stone then return blocks.set x y z o.ore else return blocks

/-- One vein. -/
def placeVein {d : Dims} (o : Ore) (coord : ChunkCoord) (blocks : BlockArray d) (vein : Nat) :
    Checked (BlockArray d) := do
  let salt := 0x0AE5 + vein
  if 4294967296 ≤ salt then throw .overflow
  let h := hashAt o.seed coord.x coord.z (UInt32.ofNat salt)
  let cx ← within h d.x
  let cy ← within (h >>> 8) d.y
  let cz ← within (h >>> 16) d.z
  let size := 2 + (h >>> 28).toNat % 4
  (List.range size).foldlM (o.placeOne h cx cy cz) blocks

/-- Runs an action for each number below `count`, from `start` on. -/
@[specialize] def repeatFrom {σ : Type} (action : σ → Nat → Checked σ) (count start : Nat)
    (s : σ) : Checked σ :=
  match count with
  | 0 => .ok s
  | count + 1 => do
    let s ← action s start
    repeatFrom action count (start + 1) s

/-- The pass that places the veins. -/
def generator (o : Ore) : Generator := fun coord _ blocks =>
  repeatFrom (o.placeVein coord) o.veins 0 blocks

end Ore

end VoxelWorld
