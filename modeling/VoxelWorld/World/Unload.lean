import VoxelWorld.World.Edit

/-!
# World.Unload — saving and letting chunks go

1. `persist` writes a generated chunk to disk, if the world has one.
2. `unload` persists a chunk and then disposes it. If it cannot be written it stays.
3. `unloadAllBy` unloads chunks one by one, up to the first that cannot be written, and
   `unloadOutside` does so for the chunks that are far from a centre.

How a chunk is written and in which order the far ones are unloaded are parameters of these
functions (`persistBy`, `unloadBy`, `unloadOutsideBy`). The world writes with
`ChunkFiles.save`, and goes by the seats of the coordinates.
-/

namespace VoxelWorld.World

variable (save : ChunkFiles → Disk → Chunk → Except IoError Unit × Disk)

/-- Writes a chunk and tells whether there was anything to write. -/
def persistBy (w : World) (chunk : Chunk) : Except IoError Bool × World :=
  match w.files with
  | none => (.ok false, w)
  | some files =>
    if chunk.isFresh then (.ok false, w)
    else
      let (result, disk) := save files w.disk chunk
      (result.map fun _ => true, { w with disk })

/-- Takes a chunk out of the world and disposes it. -/
def retire (w : World) (c : ChunkCoord) (saved : Bool) : Bool × World :=
  match w.store.idOf? c with
  | none => (false, w)
  | some id =>
    match w.store.remove? id with
    | none => (false, w)
    | some (chunk, store) =>
      let (life, gpu) := chunk.life.dispose w.gpu
      let stats :=
        { w.stats with
          unloaded := w.stats.unloaded + 1
          saved := w.stats.saved + saved.toNat }
      (true, { w with store, gpu, stats, retired := (id, life) :: w.retired })

/-- Saves and removes a chunk; gives `false` if it is not resident. -/
def unloadBy (w : World) (c : ChunkCoord) : Except IoError Bool × World :=
  match w.chunkAt? c with
  | none => (.ok false, w)
  | some chunk =>
    match w.persistBy save chunk with
    | (.error e, w) => (.error e, w)
    | (.ok saved, w) =>
      let (removed, w) := w.retire c saved
      (.ok removed, w)

/-- Unloads chunks in a given order until one cannot be saved. -/
def unloadAllBy (w : World) : List ChunkCoord → Except IoError Unit × World
  | [] => (.ok (), w)
  | c :: rest =>
    match w.unloadBy save c with
    | (.error e, w) => (.error e, w)
    | (.ok _, w) => unloadAllBy w rest

/-- The distance of two chunks along one axis. -/
def axisDistance (a b : Int) : Checked Int := do
  let d ← checkCoord (a - b)
  checkCoord d.natAbs

/-- Whether a chunk is further than `radius` from a centre along one of the axes. -/
def isOutside (center : ChunkCoord) (radius : Int) (c : ChunkCoord) : Checked Bool := do
  if (← axisDistance c.x center.x) > radius then return true
  else return (← axisDistance c.z center.z) > radius

/-- Unloads the chunks that are far from a centre, in the order that `arrange` brings them in,
and gives their number. -/
def unloadOutsideBy (arrange : List Chunk → List Chunk) (w : World) (center : ChunkCoord)
    (radius : Int) : Checked (Except IoError Nat × World) := do
  let far ← w.store.chunks.filterM fun chunk => isOutside center radius chunk.coord
  let (result, w) := w.unloadAllBy save ((arrange far).map Chunk.coord)
  return (result.map fun _ => far.length, w)

def persist (w : World) (chunk : Chunk) : Except IoError Bool × World :=
  w.persistBy ChunkFiles.save chunk

def unload (w : World) (c : ChunkCoord) : Except IoError Bool × World :=
  w.unloadBy ChunkFiles.save c

/-- Unloads the chunks that are far from a centre, by their seats, and gives their number. -/
def unloadOutside (w : World) (center : ChunkCoord) (radius : Int) :
    Checked (Except IoError Nat × World) :=
  w.unloadOutsideBy ChunkFiles.save w.store.bySeat center radius

/-- Saves chunks in a given order until one cannot be saved, and counts them. -/
def persistAll (w : World) (count : Nat) : List Chunk → Except IoError Nat × World
  | [] => (.ok count, w)
  | chunk :: rest =>
    match w.persist chunk with
    | (.error e, w) => (.error e, w)
    | (.ok saved, w) => persistAll w (count + saved.toNat) rest

/-- Saves every generated chunk and gives their number. -/
def saveAll (w : World) : Except IoError Nat × World :=
  match w.persistAll 0 w.store.chunks with
  | (.error e, w) => (.error e, w)
  | (.ok n, w) => (.ok n, { w with stats := { w.stats with saved := w.stats.saved + n } })

end VoxelWorld.World
