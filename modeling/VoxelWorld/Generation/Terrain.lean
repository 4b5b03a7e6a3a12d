import VoxelWorld.Config
import VoxelWorld.Generation.Noise
import VoxelWorld.Generation.Passes

/-!
# Generation.Terrain — the ground

Each column gets stone up to a height given by noise, some layers of dirt and grass on
top; columns that barely rise above the sea get sand in place of both.
-/

namespace VoxelWorld

/-- The ground: its shape and its blocks. -/
structure Terrain where
  seed : Int
  params : TerrainParams
  stone : BlockId
  dirt : BlockId
  grass : BlockId
  sand : BlockId

namespace Terrain

def new (seed : Int) (params : TerrainParams) (reg : Registry) : Terrain where
  seed
  params
  stone := reg.idOrAir "stone"
  dirt := reg.idOrAir "dirt"
  grass := reg.idOrAir "grass"
  sand := reg.idOrAir "sand"

def noise (t : Terrain) : Noise := ⟨Int32.ofInt t.seed, t.params.frequency⟩

/-- The height that a noise value gives to a column, held between one and the highest
cell. -/
def heightOf (t : Terrain) (noise : Float32) (maxY : Int) : Checked Int := do
  let h ← checkCoord (t.params.seaLevel + floatToCoord (noise * t.params.amplitude))
  let top ← checkCoord (maxY - 1)
  return min (max h 1) (max top 1)

/-- The height of the ground in a column of the world. -/
def heightAt (t : Terrain) (wx wz maxY : Int) : Checked Int := do
  t.heightOf (← t.noise.value (coordToFloat wx) (coordToFloat wz)) maxY

/-- The block of a cell at height `y` in a column of height `h`. -/
@[inline] def layer (t : Terrain) (beach : Bool) (h y : Int) : Checked BlockId := do
  if y = h then return if beach then t.sand else t.grass
  else
    let stoneTop ← checkCoord (h - t.params.dirtDepth)
    if y > stoneTop then return if beach then t.sand else t.dirt
    else return t.stone

/-- Fills one column of a chunk. -/
def fillColumn {d : Dims} (t : Terrain) (baseX baseZ : Int) (z : Nat) (blocks : BlockArray d)
    (x : Nat) : Checked (BlockArray d) := do
  let wx ← checkCoord (baseX + sizeAsCoord x)
  let wz ← checkCoord (baseZ + sizeAsCoord z)
  let h ← t.heightAt wx wz d.height
  let shore ← checkCoord (t.params.seaLevel + 1)
  let top ← subSize d.y 1
  (List.range (min h.toNat top + 1)).foldlM (fun blocks y => do
    let id ← t.layer (h ≤ shore) h (sizeAsCoord y)
    return blocks.set (sizeAsCoord x) (sizeAsCoord y) (sizeAsCoord z) id) blocks

/-- The pass that lays the ground. -/
def generator (t : Terrain) : Generator := fun coord d blocks => do
  let baseX ← coord.worldX d
  let baseZ ← coord.worldZ d
  (List.range d.z).foldlM (fun blocks z =>
    (List.range d.x).foldlM (t.fillColumn baseX baseZ z) blocks) blocks

end Terrain

end VoxelWorld
