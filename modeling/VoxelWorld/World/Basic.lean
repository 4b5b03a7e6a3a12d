import VoxelWorld.Chunk.Neighbors
import VoxelWorld.Config
import VoxelWorld.Generation.Standard
import VoxelWorld.Mesh.Job
import VoxelWorld.Save.ChunkFiles
import VoxelWorld.Store

/-!
# World.Basic — the world and the way to its chunks

A world holds the resident chunks, the generators that fill new ones, the disk that old
ones are kept on and the device that meshes go to.

1. `World.new` is the empty world of a configuration.
2. `loadOrCreate` finds the chunk of a coordinate, reads it from disk or makes it.
3. `modifyLife` changes the lifecycle of a chunk together with the device.
-/

namespace VoxelWorld

/-- What a world has done so far. -/
structure WorldStats where
  created : Nat := 0
  loaded : Nat := 0
  generated : Nat := 0
  relit : Nat := 0
  meshed : Nat := 0
  meshJobs : Nat := 0
  saved : Nat := 0
  unloaded : Nat := 0
  loadErrors : Nat := 0
deriving DecidableEq, Repr, Inhabited

/-- The resident chunks and all that they depend on. -/
structure World where
  config : WorldConfig
  registry : Registry
  generators : GeneratorSet
  store : ChunkStore := .empty
  /-- Where chunks are kept; without it they are lost when they are unloaded. -/
  files : Option ChunkFiles
  disk : Disk := .empty
  /-- The point that distances are measured from. -/
  origin : Vec3 := .zero
  gpu : Gpu := .new
  /-- Builders of meshes; without them meshes are built in place. -/
  workers : Option MeshWorkers := none
  /-- Finished builds that have not been collected, the last one first. -/
  finished : List MeshDone := []
  stats : WorldStats := {}
  /-- The final state of every chunk that was unloaded, for those who still refer to it. -/
  retired : List (ChunkId × Lifecycle) := []
deriving Inhabited

namespace World

/-- The empty world of a configuration, with the usual generators. -/
def new (config : WorldConfig) (registry : Registry) : World :=
  { config
    registry
    generators := .standard config.seed config.terrain registry
    files := config.saveDir.map ChunkFiles.mk }

@[inline] def dims (w : World) : Dims := w.config.chunk

/-! ## Finding chunks -/

@[inline] def chunkAt? (w : World) (c : ChunkCoord) : Option Chunk := w.store.getAt? c

def chunkById? (w : World) (id : ChunkId) : Option Chunk := w.store.get? id

def residentCount (w : World) : Nat := w.store.size

/-- The state of a chunk that is or was resident. -/
def life? (w : World) (id : ChunkId) : Option Lifecycle :=
  match w.store.get? id with
  | some c => some c.life
  | none => w.retired.lookup id

/-! ## Changing chunks -/

@[specialize] def modify (w : World) (id : ChunkId) (f : Chunk → Chunk) : World :=
  { w with store := w.store.modify id f }

@[specialize] def modifyAt (w : World) (c : ChunkCoord) (f : Chunk → Chunk) : World :=
  { w with store := w.store.modifyAt c f }

/-- Changes the lifecycle of a chunk and the device, and gives what came out of it. Nothing
happens if the chunk is not resident. -/
def modifyLife {α : Type} (w : World) (c : ChunkCoord) (f : Lifecycle → Gpu → α × Lifecycle × Gpu) :
    Option α × World :=
  match w.chunkAt? c with
  | none => (none, w)
  | some chunk =>
    let (a, life, gpu) := f chunk.life w.gpu
    (some a, { w with store := w.store.modifyAt c fun c => { c with life }, gpu })

/-! ## Bringing chunks in -/

/-- The chunk that the disk has for a coordinate. One that cannot be read is counted as an
error and counts as missing. -/
def loadSaved (w : World) (c : ChunkCoord) : Checked (Option Chunk × World) := do
  match w.files with
  | none => return (none, w)
  | some files =>
    match ← files.load w.disk c w.dims with
    | .ok found => return (found, w)
    | .error _ =>
      return (none, { w with stats := { w.stats with loadErrors := w.stats.loadErrors + 1 } })

/-- Makes a chunk resident. -/
def makeResident (w : World) (chunk : Chunk) : ChunkId × World :=
  let inserted := w.store.insert chunk w.gpu
  (inserted.id, { w with store := inserted.store, gpu := inserted.gpu })

/-- The resident chunk of a coordinate. If there is none, the one on disk becomes resident,
or a fresh one. -/
def loadOrCreate (w : World) (c : ChunkCoord) : Checked (ChunkId × World) := do
  match w.store.idOf? c with
  | some id => return (id, w)
  | none =>
    let (found, w) ← w.loadSaved c
    match found with
    | some chunk =>
      return { w with stats := { w.stats with loaded := w.stats.loaded + 1 } }.makeResident chunk
    | none =>
      let chunk ← Chunk.new c w.dims
      return { w with stats := { w.stats with created := w.stats.created + 1 } }.makeResident chunk

/-- The ids of the eight chunks around a coordinate, which become resident. -/
def loadOrCreateNeighbors (w : World) (c : ChunkCoord) : Checked (List ChunkId × World) := do
  let (ids, w) ← neighborOffsets.foldlM (fun (ids, w) (dx, dz) => do
    let (id, w) ← loadOrCreate w (← c.offset dx dz)
    return (id :: ids, w)) (([] : List ChunkId), w)
  return (ids.reverse, w)

/-- Marks the chunks that touch the local column `(x, z)` of a chunk dirty. -/
def markNeighborsDirty (w : World) (c : ChunkCoord) (x z : Nat) : Checked World := do
  let touched ← boundaryNeighbors x z w.dims
  touched.foldlM (fun w i => do
    let (dx, dz) := neighborOffsets.getD i (0, 0)
    let (id, w) ← loadOrCreate w (← c.offset dx dz)
    return w.modify id (·.withDirty true)) w

end World

end VoxelWorld
