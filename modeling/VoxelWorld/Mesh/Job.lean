import VoxelWorld.Mesh.Snapshot

/-!
# Mesh.Job — building from a snapshot

1. `MeshWorkers.submit` starts the build of a mesh: it takes a ticket and keeps the
   snapshot.
2. `MeshJob.finish` builds the mesh and installs it if no newer build was started.

The two are apart, so a build can finish in any order and at any later time.
-/

namespace VoxelWorld

/-- A build that was started. -/
structure MeshJob where
  snapshot : Snapshot
  ticket : Nat
  id : Nat
deriving Inhabited

/-- A build that was finished. -/
structure MeshDone where
  coord : ChunkCoord
  id : Nat
  quads : Nat
  /-- Whether the mesh became the pending one. -/
  installed : Bool
deriving DecidableEq, Repr, Inhabited

/-- The builders of meshes: how many there are and the number of the last job. -/
structure MeshWorkers where
  count : Nat
  lastJob : Nat := 0
deriving DecidableEq, Repr, Inhabited

namespace MeshWorkers

/-- At least one builder. -/
def new (count : Nat) : MeshWorkers := { count := max count 1 }

/-- Starts the build of a chunk from its snapshot. -/
def submit (w : MeshWorkers) (snapshot : Snapshot) (life : Lifecycle) (gpu : Gpu) :
    MeshJob × MeshWorkers × Lifecycle × Gpu :=
  let (ticket, life, gpu) := life.beginMesh gpu
  let id := w.lastJob + 1
  ({ snapshot, ticket, id }, { w with lastJob := id }, life, gpu)

end MeshWorkers

namespace MeshJob

/-- Builds the mesh of a job and offers it to the chunk. -/
def finish (reg : Registry) (job : MeshJob) (life : Lifecycle) (gpu : Gpu) :
    Checked (MeshDone × Lifecycle × Gpu) := do
  let snapshot := job.snapshot
  let geometry ← Mesher.build reg snapshot snapshot.coord snapshot.dims
  let (installed, life, gpu) := life.installIfCurrent job.ticket (.new geometry) gpu
  return ({ coord := snapshot.coord, id := job.id, quads := geometry.quadCount, installed },
    life, gpu)

end MeshJob

end VoxelWorld
