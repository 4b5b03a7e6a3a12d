import VoxelWorld.World.Streaming

/-!
# World.Edit — placing blocks

`setBlock` writes a block, marks the chunks that can see it dirty, and brings the light
around it up to date: sky light by column, block light by retracting what the old block
gave and spreading what the new one gives.
-/

namespace VoxelWorld.World

/-- Takes back the block light at a cell that has lost its source or no longer lets
light through. -/
def retractOld (w : World) (p : Pos) (old new : BlockId) : Checked World := do
  let reg := w.registry
  let current ← w.lightAt p .block
  if current > 0 && (reg.luminance old > 0 || !reg.isTranslucent new) then
    Light.retract reg w p .block current
  else return w

/-- Spreads the block light that a new block gives or lets through. -/
def spreadNew (w : World) (p : Pos) (new : BlockId) : Checked World := do
  let reg := w.registry
  let emitted := reg.luminance new
  if emitted > 0 then Light.spread reg w p .block emitted
  else if reg.isTranslucent new then
    let w ← Light.refresh reg w p .block
    let v ← w.lightAt p .block
    if v > 0 then Light.spread reg w p .block v else return w
  else return w

/-- Brings block light up to date after an edit. -/
def refreshBlockLight (w : World) (p : Pos) (old new : BlockId) : Checked World := do
  let w ← w.retractOld p old new
  w.spreadNew p new

/-- Brings light up to date after an edit of a cell, and marks the chunks around it. -/
def afterEdit (w : World) (p : Pos) (cell : Cell) (old new : BlockId) : Checked World := do
  let w ← w.markNeighborsDirty cell.chunk cell.x cell.z
  let w ← Light.refreshColumn w.registry w p.x p.z true true
  w.refreshBlockLight p old new

/-- Places a block. Gives `false` above and below the world, and where the block is there
already. -/
def setBlock (w : World) (p : Pos) (id : BlockId) : Checked (Bool × World) := do
  match ← p.split w.dims with
  | none => return (false, w)
  | some cell =>
    let (_, w) ← w.generate cell.chunk
    match w.chunkAt? cell.chunk with
    | none => return (false, w)
    | some chunk =>
      let old := chunk.block cell.x cell.y cell.z
      if !chunk.blockDiffers cell.x cell.y cell.z id then return (false, w)
      else
        let w := w.modifyAt cell.chunk fun c =>
          (c.putBlock cell.x cell.y cell.z id).withDirty true
        return (true, ← w.afterEdit p cell old id)

/-- Places a block by its name, or air if no block has the name. -/
def setNamed (w : World) (p : Pos) (name : String) : Checked (Bool × World) :=
  w.setBlock p (w.registry.idOrAir name)

end VoxelWorld.World
