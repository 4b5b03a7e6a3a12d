import VoxelWorld.Chunk.Basic

/-!
# Mesh.View — what a mesh is built from

`VoxelView` gives blocks and light by position. A chunk on its own is a view: around it
there is air, and the light channels read as their sentinels.
-/

namespace VoxelWorld

/-- Blocks and light by position, for reading. -/
class VoxelView (V : Type) where
  block : V → Pos → Checked BlockId
  light : V → Pos → LightKind → Checked Nat

namespace Chunk

/-- A position relative to the first block column of the chunk. -/
@[inline] def toLocal (c : Chunk) (p : Pos) : Checked Pos := do
  let x ← checkCoord (p.x - (← c.worldX))
  let z ← checkCoord (p.z - (← c.worldZ))
  return ⟨x, p.y, z⟩

def blockAt (c : Chunk) (p : Pos) : Checked BlockId := do
  let q ← c.toLocal p
  return c.block q.x q.y q.z

def lightAt (c : Chunk) (p : Pos) (kind : LightKind) : Checked Nat := do
  let q ← c.toLocal p
  return c.light q.x q.y q.z kind

instance : VoxelView Chunk where
  block := blockAt
  light := lightAt

end Chunk

end VoxelWorld
