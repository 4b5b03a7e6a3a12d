import VoxelWorld.World.Meshing

/-!
# World.Streaming — making chunks ready

1. `generate` fills a fresh chunk and seeds its sky light.
2. `updateLight` spreads the light of a chunk into its neighbours.
3. `process` brings a chunk all the way: it and its neighbours generated, its light
   spread and its mesh built. It tells whether there was anything to do.
-/

namespace VoxelWorld.World

/-- Fills a chunk, seeds its sky light and ends its fresh state. -/
def populate (w : World) (chunk : Chunk) : Checked Chunk := do
  let chunk ← chunk.populate w.generators.runAll
  let chunk ← Light.seedSky w.registry chunk
  return chunk.markGenerated

/-- Fills the chunk of a coordinate if it is fresh. -/
def generate (w : World) (c : ChunkCoord) : Checked (Bool × World) := do
  let (id, w) ← w.loadOrCreate c
  match w.store.get? id with
  | none => return (false, w)
  | some chunk =>
    if !chunk.isFresh then return (false, w)
    else
      let chunk ← w.populate chunk
      let w := w.modify id fun _ => chunk
      return (true, { w with stats := { w.stats with generated := w.stats.generated + 1 } })

/-- Spreads the light of a generated chunk into the world. -/
def updateLight (w : World) (c : ChunkCoord) : Checked (Bool × World) := do
  match w.chunkAt? c with
  | none => return (false, w)
  | some chunk =>
    if chunk.isFresh then return (false, w)
    else
      let w ← Light.relight w.registry w c w.dims
      let w := w.modifyAt c (·.withLightDirty false)
      return (true, { w with stats := { w.stats with relit := w.stats.relit + 1 } })

/-- Fills the chunks around a coordinate. -/
def generateNeighbors (w : World) (c : ChunkCoord) : Checked (Bool × World) :=
  neighborOffsets.foldlM (fun (worked, w) (dx, dz) => do
    let (did, w) ← generate w (← c.offset dx dz)
    return (worked || did, w)) (false, w)

/-- Spreads the light of a chunk if that is due. -/
def settleLight (w : World) (c : ChunkCoord) : Checked (Bool × World) := do
  match w.chunkAt? c with
  | none => return (false, w)
  | some chunk => if chunk.isLightDirty then w.updateLight c else return (false, w)

/-- Builds the mesh of a chunk if that is due. -/
def settleMesh (w : World) (c : ChunkCoord) : Checked (Bool × World) := do
  match w.chunkAt? c with
  | none => return (false, w)
  | some chunk =>
    if chunk.isDirty && !chunk.isLightDirty && !chunk.isFresh then w.generateMesh c
    else return (false, w)

/-- Makes a chunk ready to be drawn. -/
def process (w : World) (c : ChunkCoord) : Checked (Bool × World) := do
  let (own, w) ← w.generate c
  let (around, w) ← w.generateNeighbors c
  let (lit, w) ← w.settleLight c
  let (meshed, w) ← w.settleMesh c
  return (own || around || lit || meshed, w)

end VoxelWorld.World
