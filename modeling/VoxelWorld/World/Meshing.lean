import VoxelWorld.World.Cells

/-!
# World.Meshing — meshes of the world

1. `generateMesh` builds the mesh of a chunk, in place or as a job on a snapshot. A job
   clears `dirty` when it is started and is finished at once.
2. `drain` collects the finished jobs.
3. `frame` draws the world: uploads and swaps, then the solid pass from near to far, then
   the translucent one from far to near.
-/

namespace VoxelWorld.World

/-! ## Building -/

/-- Copies a resident chunk. -/
def snapshot (w : World) (c : ChunkCoord) : Checked (Option Snapshot) := do
  match w.chunkAt? c with
  | none => return none
  | some _ => return some (← Snapshot.capture w c w.dims)

/-- Replaces the state of a chunk and of the device. -/
def withLife (w : World) (c : ChunkCoord) (life : Lifecycle) (gpu : Gpu) : World :=
  { w with store := w.store.modifyAt c fun chunk => { chunk with life }, gpu }

/-- Builds the mesh of a chunk on the builders. -/
def meshByJob (w : World) (c : ChunkCoord) (workers : MeshWorkers) (life : Lifecycle) :
    Checked World := do
  let snapshot ← Snapshot.capture w c w.dims
  let (job, workers, life, gpu) := workers.submit snapshot { life with dirty := false } w.gpu
  let (done, life, gpu) ← job.finish w.registry life gpu
  return {
    w.withLife c life gpu with
    workers := some workers
    finished := done :: w.finished
    stats := { w.stats with meshJobs := w.stats.meshJobs + 1 } }

/-- Builds the mesh of a chunk in place. -/
def meshInPlace (w : World) (c : ChunkCoord) (life : Lifecycle) : Checked (Bool × World) := do
  let geometry ← Mesher.build w.registry w c w.dims
  let (installed, life, gpu) := life.installMesh (.new geometry) w.gpu
  let w := w.withLife c life gpu
  if installed then
    return (true, { w with stats := { w.stats with meshed := w.stats.meshed + 1 } })
  else return (false, w)

/-- Builds the mesh of a generated chunk and makes it the pending one. -/
def generateMesh (w : World) (c : ChunkCoord) : Checked (Bool × World) := do
  match w.chunkAt? c with
  | none => return (false, w)
  | some chunk =>
    if chunk.isFresh || chunk.isDisposed then return (false, w)
    else
      match w.workers with
      | some workers => return (true, ← w.meshByJob c workers chunk.life)
      | none => w.meshInPlace c chunk.life

/-- The jobs finished since the last time, in their order. -/
def drain (w : World) : List MeshDone × World :=
  let done := w.finished.reverse
  let installed := (done.filter MeshDone.installed).length
  (done, { w with
    finished := []
    stats := { w.stats with meshed := w.stats.meshed + installed } })

/-! ## Distance -/

/-- The resident chunks, the nearest to the origin first. -/
def chunksByDistance (w : World) : Checked (List ChunkCoord) := do
  return (← w.store.byDistance w.origin).map Chunk.coord

/-- The generated chunks, the nearest to the origin first. -/
def renderList (w : World) : Checked (List ChunkCoord) := do
  return ((← w.store.byDistance w.origin).filter (!·.isFresh)).map Chunk.coord

/-- Sets the flag of one chunk by its distance. -/
def updateChunkVisibility (limit : Float) (w : World) (entry : ChunkId × Chunk) :
    Checked World := do
  let distance ← entry.2.distanceTo w.origin
  return w.modify entry.1 (·.withVisible (distance ≤ limit))

/-- Makes the chunks up to a distance visible and the others not. -/
def updateVisibility (w : World) (limit : Float) : Checked World :=
  w.store.entries.foldlM (updateChunkVisibility limit) w

/-! ## Drawing -/

/-- Uploads the pending mesh of a chunk. -/
def generateBuffers (w : World) (c : ChunkCoord) : World :=
  (w.modifyLife c fun life gpu => ((), life.generate gpu)).2

/-- Swaps the pending mesh of a chunk in, if it is ready; `none` if the chunk is not
resident. -/
def update (w : World) (c : ChunkCoord) : Option Bool × World :=
  w.modifyLife c fun life gpu => life.update gpu

/-- Disposes the meshes of a chunk, for good. -/
def dispose (w : World) (c : ChunkCoord) : World :=
  (w.modifyLife c fun life gpu => ((), life.dispose gpu)).2

/-- Draws one pass of a chunk. -/
def render (w : World) (pass : Pass) (c : ChunkCoord) : World :=
  (w.modifyLife c fun life gpu => ((), life, life.render pass gpu)).2

/-- Draws one pass of a chunk if it is visible. -/
def renderVisible (pass : Pass) (w : World) (c : ChunkCoord) : World :=
  match w.chunkAt? c with
  | none => w
  | some chunk => if chunk.life.visible then w.render pass c else w

/-- Uploads and swaps the meshes of one chunk; notes the chunk if there was a swap. -/
def swapIn (s : List ChunkCoord × World) (c : ChunkCoord) : List ChunkCoord × World :=
  match (s.2.generateBuffers c).update c with
  | (some true, w) => (c :: s.1, w)
  | (_, w) => (s.1, w)

/-- Draws chunks in a given order and gives those whose mesh was swapped. -/
def frameOf (w : World) (chunks : List ChunkCoord) : List ChunkCoord × World :=
  let (swapped, w) := chunks.foldl swapIn ([], w)
  let w := chunks.foldl (renderVisible .solid) w
  let w := chunks.reverse.foldl (renderVisible .translucent) w
  (swapped.reverse, w)

/-- Draws the generated chunks. -/
def frame (w : World) : Checked (List ChunkCoord × World) := do
  return w.frameOf (← w.renderList)

end VoxelWorld.World
