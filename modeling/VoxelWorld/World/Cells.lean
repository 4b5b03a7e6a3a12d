import VoxelWorld.Light.Column
import VoxelWorld.World.Basic

/-!
# World.Cells — blocks and light by position

1. `blockAt` reads air where no chunk is resident.
2. `lightAt` reads the sentinel above the world; below it, and where no chunk is
   resident, it reads darkness.
3. `writeLight` writes into generated chunks only, and marks the chunks that can see
   the change dirty.

With these a world is a volume for light and a view for meshes.
-/

namespace VoxelWorld.World

def blockAt (w : World) (p : Pos) : Checked BlockId := do
  match ← p.split w.dims with
  | none => return air
  | some cell =>
    match w.chunkAt? cell.chunk with
    | none => return air
    | some chunk => return chunk.block cell.x cell.y cell.z

def lightAt (w : World) (p : Pos) (kind : LightKind) : Checked Nat := do
  if w.dims.height ≤ p.y then return kind.sentinel
  else
    match ← p.split w.dims with
    | none => return 0
    | some cell =>
      match w.chunkAt? cell.chunk with
      | none => return 0
      | some chunk => return chunk.light cell.x cell.y cell.z kind

/-- Whether a position lies in a generated chunk. -/
def acceptsLight (w : World) (p : Pos) : Checked Bool := do
  match ← p.split w.dims with
  | none => return false
  | some cell =>
    match w.chunkAt? cell.chunk with
    | none => return false
    | some chunk => return !chunk.isFresh

/-- The resident chunk of a cell, if writing a light level to the cell would change it. -/
def lightTarget? (w : World) (cell : Cell) (kind : LightKind) (v : Nat) : Option ChunkId :=
  match w.store.idOf? cell.chunk with
  | none => none
  | some id =>
    match w.store.get? id with
    | none => none
    | some chunk =>
      if !chunk.isFresh && chunk.lightDiffers cell.x cell.y cell.z kind v then some id else none

/-- Writes a light level and tells whether that changed a cell. -/
def writeLight (w : World) (p : Pos) (kind : LightKind) (v : Nat) : Checked (Bool × World) := do
  match ← p.split w.dims with
  | none => return (false, w)
  | some cell =>
    match w.lightTarget? cell kind v with
    | none => return (false, w)
    | some id =>
      let w := w.modify id fun c => (c.putLight cell.x cell.y cell.z kind v).withDirty true
      return (true, ← w.markNeighborsDirty cell.chunk cell.x cell.z)

instance : LightVolume World where
  height w := w.dims.height
  light := lightAt
  setLight w p kind v := do
    let (_, w) ← w.writeLight p kind v
    return w
  block := blockAt
  acceptsLight := acceptsLight

instance : VoxelView World where
  block := blockAt
  light := lightAt

/-! ## Light from outside -/

def spreadLight (w : World) (p : Pos) (kind : LightKind) (v : Nat) : Checked World :=
  Light.spread w.registry w p kind v

def retractLight (w : World) (p : Pos) (kind : LightKind) (v : Nat) : Checked World :=
  Light.retract w.registry w p kind v

end VoxelWorld.World
