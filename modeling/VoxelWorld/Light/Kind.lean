import VoxelWorld.Storage.Nibbles

/-!
# Light.Kind — the two channels of light

Sky light comes from above the world, block light from blocks that give off light.
-/

namespace VoxelWorld

/-- A channel of light. -/
inductive LightKind
  | sky
  | block
deriving DecidableEq, Repr, Inhabited

/-- The level read where nothing is stored: the open sky is bright, and no block shines. -/
def LightKind.sentinel : LightKind → Nat
  | .sky => maxLight
  | .block => 0

end VoxelWorld
