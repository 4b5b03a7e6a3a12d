import VoxelWorld.Gpu

/-!
# Mesh.ChunkMesh — a mesh and its buffers

A mesh starts with its geometry in memory, trades it for buffers when it is uploaded,
and releases them when it is disposed. A pass without quads never gets a buffer.
-/

namespace VoxelWorld

/-- A mesh on its way to the device. -/
structure ChunkMesh where
  /-- Present until the mesh is uploaded or disposed. -/
  geometry : Option MeshGeometry
  solid : Option Nat := none
  translucent : Option Nat := none
  quads : Nat
  generated : Bool := false
  disposed : Bool := false
deriving Inhabited

namespace ChunkMesh

def new (g : MeshGeometry) : ChunkMesh := { geometry := some g, quads := g.quadCount }

/-- The buffers that the mesh holds. -/
def buffers (m : ChunkMesh) : List Nat := m.solid.toList ++ m.translucent.toList

/-- The buffer of one pass. -/
def buffer? (m : ChunkMesh) : Pass → Option Nat
  | .solid => m.solid
  | .translucent => m.translucent

/-- Uploads the streams of a pass unless it is empty. -/
def uploadPass (b : MeshBuild) (gpu : Gpu) : Option Nat × Gpu :=
  if b.isEmpty then (none, gpu)
  else
    let (id, gpu) := gpu.upload b
    (some id, gpu)

/-- Uploads the mesh. Nothing happens the second time, or after disposal. -/
def generate (m : ChunkMesh) (gpu : Gpu) : ChunkMesh × Gpu :=
  if m.generated || m.disposed then (m, gpu)
  else
    match m.geometry with
    | none => ({ m with generated := true }, gpu)
    | some g =>
      let (solid, gpu) := uploadPass g.solid gpu
      let (translucent, gpu) := uploadPass g.translucent gpu
      ({ m with geometry := none, solid, translucent, generated := true }, gpu)

/-- Releases the buffers. Nothing happens the second time. -/
def dispose (m : ChunkMesh) (gpu : Gpu) : ChunkMesh × Gpu :=
  if m.disposed then (m, gpu)
  else
    ({ m with geometry := none, solid := none, translucent := none, disposed := true },
      m.buffers.foldl Gpu.release gpu)

/-- Draws one pass, if the mesh has a buffer for it. -/
def render (m : ChunkMesh) (pass : Pass) (gpu : Gpu) : Gpu :=
  if m.disposed then gpu
  else
    match m.buffer? pass with
    | none => gpu
    | some id => gpu.draw id pass

end ChunkMesh

end VoxelWorld
