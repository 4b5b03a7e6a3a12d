import VoxelWorld.Mesh.View

/-!
# Mesh.Mesher — from blocks to quads

1. `showsFace` decides whether a side is drawn: it is seen through an invisible block
   or a billboard, and through a translucent block of another kind.
2. `shade` turns the light of the cell that a side faces into a grey.
3. `build` goes through the cells of a chunk, `x` innermost, then `z`, then `y`.
-/

namespace VoxelWorld.Mesher

variable {V : Type} [VoxelView V]

/-! ## One side -/

/-- Whether the side of a block `here` is seen past its neighbour `there`. -/
def showsFace (reg : Registry) (here there : BlockId) : Bool :=
  let t := reg.get there
  if t.invisible || t.isBillboard then true else t.translucent && there ≠ here

/-- The part of the brightness that is there without any light. -/
def leastBrightness : Float32 := 0.12

/-- A brightness between zero and one as a byte. -/
def greyLevel (v : Float32) : UInt8 :=
  let held := if v < 0 then 0 else if 1 < v then 1 else v
  (held * 255).round.toUInt8

/-- The colour of something that faces a cell with the given light. -/
def shadeOf (level : Nat) (factor : Float32) : Rgba :=
  let share := sizeToFloat level / 15
  .grey (greyLevel ((leastBrightness + (1 - leastBrightness) * share) * factor))

@[specialize] def shade (view : V) (p : Pos) (factor : Float32) : Checked Rgba := do
  let sky ← VoxelView.light view p .sky
  let block ← VoxelView.light view p .block
  return shadeOf (max sky block) factor

/-! ## One block -/

/-- The corner of a cell in space. -/
def cellCorner (p : Pos) : Vec3 := ⟨coordToFloat p.x, coordToFloat p.y, coordToFloat p.z⟩

/-- Adds a side to the geometry of its pass. -/
def addFace (translucent : Bool) (f : Face) (cell : Vec3) (color : Rgba) (g : MeshGeometry) :
    MeshGeometry :=
  let ⟨solid, other⟩ := g
  if translucent then ⟨solid, other.addFace f cell color⟩ else ⟨solid.addFace f cell color, other⟩

/-- Draws one side of a block if it can be seen. Nothing is seen from below the world. -/
@[specialize] def buildFace (reg : Registry) (view : V) (p : Pos) (id : BlockId)
    (g : MeshGeometry) (f : Face) : Checked MeshGeometry := do
  let (dx, dy, dz) := f.step
  let n ← p.offset dx dy dz
  if n.y < 0 then return g
  else
    let there ← VoxelView.block view n
    if showsFace reg id there then
      let color ← shade view n f.shade
      return addFace (reg.get id).translucent f (cellCorner p) color g
    else return g

/-- Draws the block of one cell. -/
@[specialize] def buildCell (reg : Registry) (view : V) (p : Pos) (g : MeshGeometry) :
    Checked MeshGeometry := do
  let id ← VoxelView.block view p
  let type := reg.get id
  if type.invisible then return g
  else if type.isBillboard then
    let color ← shade view p 1
    let ⟨solid, other⟩ := g
    return ⟨solid, other.addBillboard (cellCorner p) color⟩
  else Face.all.foldlM (buildFace reg view p id) g

/-! ## A chunk -/

/-- The geometry of the chunk at a coordinate. -/
@[specialize] def build (reg : Registry) (view : V) (coord : ChunkCoord) (d : Dims) :
    Checked MeshGeometry := do
  let baseX ← coord.worldX d
  let baseZ ← coord.worldZ d
  (sideRange d.height).foldlM (fun g y =>
    (sideRange d.depth).foldlM (fun g z =>
      (sideRange d.width).foldlM (fun g x => do
        let wx ← checkCoord (baseX + x)
        let wz ← checkCoord (baseZ + z)
        buildCell reg view ⟨wx, y, wz⟩ g) g) g) .empty

end VoxelWorld.Mesher
