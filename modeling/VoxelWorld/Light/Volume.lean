import VoxelWorld.Block.Registry
import VoxelWorld.Chunk.Basic

/-!
# Light.Volume — where light can be

1. `LightVolume` is what the light algorithms need to know of a world: blocks and
   light by position, and which positions take light at all.
2. `ChunkVolume` is a single chunk in its place. Positions outside it read as the
   sentinels of the chunk, and writes to them are dropped.
-/

namespace VoxelWorld

/-- Blocks and light by position. -/
class LightVolume (V : Type) where
  /-- Number of cells in a column. -/
  height : V → Int
  light : V → Pos → LightKind → Checked Nat
  /-- Writes a level; dropped where light is not accepted. -/
  setLight : V → Pos → LightKind → Nat → Checked V
  block : V → Pos → Checked BlockId
  /-- Whether a position belongs to the volume. -/
  acceptsLight : V → Pos → Checked Bool

/-- A chunk with the first block column of its place. -/
structure ChunkVolume where
  chunk : Chunk
  baseX : Int
  baseZ : Int

namespace ChunkVolume

def new (c : Chunk) : Checked ChunkVolume := do
  let baseX ← c.worldX
  let baseZ ← c.worldZ
  return ⟨c, baseX, baseZ⟩

/-- A position relative to the chunk. -/
@[inline] def toLocal (v : ChunkVolume) (p : Pos) : Checked Pos := do
  let x ← checkCoord (p.x - v.baseX)
  let z ← checkCoord (p.z - v.baseZ)
  return ⟨x, p.y, z⟩

def light (v : ChunkVolume) (p : Pos) (kind : LightKind) : Checked Nat := do
  let q ← v.toLocal p
  return v.chunk.light q.x q.y q.z kind

def setLight (v : ChunkVolume) (p : Pos) (kind : LightKind) (level : Nat) :
    Checked ChunkVolume := do
  let q ← v.toLocal p
  return { v with chunk := v.chunk.putLight q.x q.y q.z kind level }

def block (v : ChunkVolume) (p : Pos) : Checked BlockId := do
  let q ← v.toLocal p
  return v.chunk.block q.x q.y q.z

def acceptsLight (v : ChunkVolume) (p : Pos) : Checked Bool := do
  let q ← v.toLocal p
  return v.chunk.dims.contains q.x q.y q.z

instance : LightVolume ChunkVolume where
  height v := v.chunk.dims.height
  light := light
  setLight := setLight
  block := block
  acceptsLight := acceptsLight

end ChunkVolume

end VoxelWorld
