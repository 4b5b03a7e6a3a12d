import VoxelWorld.Mesh.Mesher

/-!
# Mesh.Snapshot — a copy to build from

A snapshot copies a chunk and the cells next to it along `x` and `z`, so that its mesh
can be built while the world goes on changing. Positions outside the copy read as air
and as the sentinels of the light channels.
-/

namespace VoxelWorld

/-- The copy of one cell. -/
structure Voxel where
  block : BlockId
  sky : Nat
  blockLight : Nat
deriving DecidableEq, Repr, Inhabited

def Voxel.light (v : Voxel) : LightKind → Nat
  | .sky => v.sky
  | .block => v.blockLight

/-- A copy of a chunk with a border of one cell. -/
structure Snapshot where
  coord : ChunkCoord
  dims : Dims
  baseX : Int
  baseZ : Int
  cells : Array Voxel
deriving Inhabited

namespace Snapshot

@[specialize] def voxelAt {V : Type} [VoxelView V] (view : V) (p : Pos) : Checked Voxel := do
  let block ← VoxelView.block view p
  let sky ← VoxelView.light view p .sky
  let blockLight ← VoxelView.light view p .block
  return ⟨block, sky, blockLight⟩

/-- The number of cells of a copy. -/
def cellCount (d : Dims) : Checked Nat := do
  let width ← checkSize (d.x + 2)
  let depth ← checkSize (d.z + 2)
  let area ← checkSize (width * depth)
  let n ← checkSize (area * d.y)
  if n ≤ arrayLimit then return n else throw .capacity

/-- Copies the chunk at a coordinate, `x` innermost, then `z`, then `y`. -/
@[specialize] def capture {V : Type} [VoxelView V] (view : V) (coord : ChunkCoord) (d : Dims) :
    Checked Snapshot := do
  let _ ← cellCount d
  let baseX ← coord.worldX d
  let baseZ ← coord.worldZ d
  let cells ← (sideRange d.height).foldlM (fun cells y =>
    (borderRange d.depth).foldlM (fun cells z =>
      (borderRange d.width).foldlM (fun (cells : Array Voxel) x => do
        let wx ← checkCoord (baseX + x)
        let wz ← checkCoord (baseZ + z)
        return cells.push (← voxelAt view ⟨wx, y, wz⟩)) cells) cells) #[]
  return { coord, dims := d, baseX, baseZ, cells }

/-- The number of a position among the copied cells; `none` outside. -/
def index? (s : Snapshot) (p : Pos) : Checked (Option Nat) := do
  let x ← checkCoord ((← checkCoord (p.x - s.baseX)) + 1)
  let z ← checkCoord ((← checkCoord (p.z - s.baseZ)) + 1)
  let width ← checkCoord (s.dims.width + 2)
  let depth ← checkCoord (s.dims.depth + 2)
  if x < 0 ∨ z < 0 ∨ p.y < 0 ∨ width ≤ x ∨ depth ≤ z ∨ s.dims.height ≤ p.y then return none
  else
    let rows ← checkCoord ((← checkCoord (p.y * depth)) + z)
    let i ← checkCoord ((← checkCoord (rows * width)) + x)
    return some i.toNat

/-- The copy of a cell; `none` outside. -/
def voxel? (s : Snapshot) (p : Pos) : Checked (Option Voxel) := do
  match ← s.index? p with
  | none => return none
  | some i =>
    match s.cells[i]? with
    | none => throw .outOfBounds
    | some v => return some v

def block (s : Snapshot) (p : Pos) : Checked BlockId := do
  return ((← s.voxel? p).map Voxel.block).getD air

def light (s : Snapshot) (p : Pos) (kind : LightKind) : Checked Nat := do
  return ((← s.voxel? p).map (Voxel.light · kind)).getD kind.sentinel

instance : VoxelView Snapshot where
  block := block
  light := light

end Snapshot

end VoxelWorld
