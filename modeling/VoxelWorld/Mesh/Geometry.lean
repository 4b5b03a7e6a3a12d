import VoxelWorld.Mesh.Build

/-!
# Mesh.Geometry — the two passes of a chunk

Blocks that stop light and blocks that let it through are drawn in separate passes.
-/

namespace VoxelWorld

/-- A drawing pass. -/
inductive Pass
  /-- Blocks that stop light, drawn first. -/
  | solid
  | translucent
deriving DecidableEq, Repr, Inhabited

/-- The geometry of one chunk. -/
structure MeshGeometry where
  solid : MeshBuild := {}
  translucent : MeshBuild := {}
deriving Inhabited

namespace MeshGeometry

def empty : MeshGeometry := {}

def quadCount (g : MeshGeometry) : Nat := g.solid.quadCount + g.translucent.quadCount

def isEmpty (g : MeshGeometry) : Bool := g.solid.isEmpty && g.translucent.isEmpty

/-- The streams of one pass. -/
def pass (g : MeshGeometry) : Pass → MeshBuild
  | .solid => g.solid
  | .translucent => g.translucent

end MeshGeometry

end VoxelWorld
