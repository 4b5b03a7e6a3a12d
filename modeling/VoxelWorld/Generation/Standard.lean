import VoxelWorld.Generation.Forest
import VoxelWorld.Generation.Ore
import VoxelWorld.Generation.Terrain

/-!
# Generation.Standard — the passes of an ordinary world

The ground, the veins in it and what grows on it, all from one seed.
-/

namespace VoxelWorld.GeneratorSet

/-- The three passes for a seed and the shape of the ground. -/
def standard (seed : Int) (params : TerrainParams) (reg : Registry) : GeneratorSet :=
  empty
    |>.insert "terrain" (Terrain.new seed params reg).generator
    |>.insert "resources" (Ore.new seed params.oreVeins reg).generator
    |>.insert "forest" (Forest.new seed params reg).generator

end VoxelWorld.GeneratorSet
