import VoxelWorld.Config
import VoxelWorld.Generation.Hash
import VoxelWorld.Generation.Passes

/-!
# Generation.Forest — trees and plants

Each column whose surface is grass may get a tree or a plant. Trees stay so far from the
edges of the chunk that their leaves do not reach into a neighbour.
-/

namespace VoxelWorld

/-- What grows in a world. -/
structure Forest where
  seed : Int
  params : TerrainParams
  grass : BlockId
  log : BlockId
  leaves : BlockId
  tallGrass : BlockId
  flower : BlockId

namespace Forest

def new (seed : Int) (params : TerrainParams) (reg : Registry) : Forest where
  seed
  params
  grass := reg.idOrAir "grass"
  log := reg.idOrAir "log"
  leaves := reg.idOrAir "leaves"
  tallGrass := reg.idOrAir "tall_grass"
  flower := reg.idOrAir "red_flower"

/-- How far leaves reach from the trunk. -/
def leafRadius : Nat := 2

variable {d : Dims}

/-- The block of a cell given by sizes. -/
@[inline] def blockAt (blocks : BlockArray d) (x y z : Nat) : BlockId :=
  blocks.get (sizeAsCoord x) (sizeAsCoord y) (sizeAsCoord z)

@[inline] def putAt (blocks : BlockArray d) (x y z : Nat) (id : BlockId) : BlockArray d :=
  blocks.set (sizeAsCoord x) (sizeAsCoord y) (sizeAsCoord z) id

/-- The highest cell below `y` that is not air. -/
def surfaceBelow (blocks : BlockArray d) (x z : Nat) : Nat → Option Nat
  | 0 => none
  | y + 1 => if blockAt blocks x y z ≠ air then some y else surfaceBelow blocks x z y

/-- The highest cell of a column that is not air. -/
def surface (blocks : BlockArray d) (x z : Nat) : Option Nat := surfaceBelow blocks x z d.y

/-- The numbers from `n - r` to `n + r`. -/
def around (n r : Nat) : Checked (List Nat) := do
  let lo ← subSize n r
  return List.range' lo (n + r + 1 - lo)

/-- Leaves in one layer of a crown, where there is air. -/
def placeLeaves (f : Forest) (x z top : Nat) (blocks : BlockArray d) (y : Nat) :
    Checked (BlockArray d) := do
  let r := if y > top then leafRadius - 1 else leafRadius
  let rows ← around z r
  rows.foldlM (fun blocks lz => do
    let columns ← around x r
    return columns.foldl (fun blocks lx =>
      if blockAt blocks lx y lz = air then putAt blocks lx y lz f.leaves else blocks) blocks)
    blocks

/-- A tree on the cell `(x, ground, z)`, if it stays below the top of the chunk. -/
def placeTree (f : Forest) (x ground z : Nat) (h : UInt32) (blocks : BlockArray d) :
    Checked (BlockArray d) := do
  let trunk := 4 + (h >>> 20).toNat % 3
  let top := ground + trunk
  if d.y ≤ top + 2 then return blocks
  let blocks := (List.range' (ground + 1) trunk).foldl (fun blocks y =>
    putAt blocks x y z f.log) blocks
  (List.range' (top - 1) 3).foldlM (f.placeLeaves x z top) blocks

/-- Whether a column is so far inside the chunk that a tree fits. -/
def isInner (d : Dims) (x z : Nat) : Bool :=
  leafRadius ≤ x && leafRadius ≤ z && x + leafRadius < d.x && z + leafRadius < d.z

/-- What grows on one column. -/
def plantColumn (f : Forest) (baseX baseZ : Int) (z : Nat) (blocks : BlockArray d) (x : Nat) :
    Checked (BlockArray d) := do
  match surface blocks x z with
  | none => return blocks
  | some ground =>
    if blockAt blocks x ground z ≠ f.grass ∨ d.y ≤ ground + 1 then return blocks
    let wx ← checkCoord (baseX + sizeAsCoord x)
    let wz ← checkCoord (baseZ + sizeAsCoord z)
    let h := hashAt f.seed wx wz 0xF0E5
    let roll := unitOf h
    if isInner d x z && roll < f.params.treeChance then
      f.placeTree x ground z h blocks
    else if roll < f.params.treeChance + f.params.grassChance
        && blockAt blocks x (ground + 1) z = air then
      let id := if h &&& 0xF = 0 then f.flower else f.tallGrass
      return putAt blocks x (ground + 1) z id
    else return blocks

/-- The pass that plants a chunk. -/
def generator (f : Forest) : Generator := fun coord d blocks => do
  let baseX ← coord.worldX d
  let baseZ ← coord.worldZ d
  (List.range d.z).foldlM (fun blocks z =>
    (List.range d.x).foldlM (f.plantColumn baseX baseZ z) blocks) blocks

end Forest

end VoxelWorld
