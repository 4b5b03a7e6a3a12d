import VoxelWorld.Dims

/-!
# Coord — chunk coordinates and block positions

The world is cut into chunks along `x` and `z`; a chunk spans the whole height.

1. `ChunkCoord` is the grid position of a chunk. Its corner in block units is
   `(worldX, worldZ)`.
2. `Pos` is the absolute position of one block.
3. `Pos.split` finds the chunk of a position and the cell in that chunk.

Sums and products that leave 32 bits are faults. Division rounds down, so that
the local cell is never negative.
-/

namespace VoxelWorld

/-- Grid position of a chunk. -/
structure ChunkCoord where
  x : Int
  z : Int
deriving DecidableEq, Repr, Inhabited, Hashable

namespace ChunkCoord

def offset (c : ChunkCoord) (dx dz : Int) : Checked ChunkCoord := do
  let x ← checkCoord (c.x + dx)
  let z ← checkCoord (c.z + dz)
  return ⟨x, z⟩

/-- The chunk that holds the block column `(x, z)`. -/
@[inline] def containing (x z : Int) (d : Dims) : Checked ChunkCoord := do
  let cx ← divCoord x d.width
  let cz ← divCoord z d.depth
  return ⟨cx, cz⟩

/-- The first block column of a chunk along `x`. -/
@[inline] def worldX (c : ChunkCoord) (d : Dims) : Checked Int := checkCoord (c.x * d.width)

/-- The first block column of a chunk along `z`. -/
@[inline] def worldZ (c : ChunkCoord) (d : Dims) : Checked Int := checkCoord (c.z * d.depth)

/-- The order of a listing: by `x`, then by `z`. -/
def le (a b : ChunkCoord) : Bool := a.x < b.x || (a.x == b.x && a.z ≤ b.z)

/-- The written form of a coordinate. -/
def text (c : ChunkCoord) : String := s!"({c.x}, {c.z})"

end ChunkCoord

/-- Absolute position of a block. -/
structure Pos where
  x : Int
  y : Int
  z : Int
deriving DecidableEq, Repr, Inhabited, Hashable

/-- A cell together with the chunk it lies in. -/
structure Cell where
  chunk : ChunkCoord
  x : Nat
  y : Nat
  z : Nat
deriving DecidableEq, Repr, Inhabited

namespace Pos

def offset (p : Pos) (dx dy dz : Int) : Checked Pos := do
  let x ← checkCoord (p.x + dx)
  let y ← checkCoord (p.y + dy)
  let z ← checkCoord (p.z + dz)
  return ⟨x, y, z⟩

/-- The chunk and local cell of a position; `none` below and above the world. -/
@[inline] def split (p : Pos) (d : Dims) : Checked (Option Cell) :=
  if p.y < 0 ∨ d.height ≤ p.y then
    .ok none
  else do
    let c ← ChunkCoord.containing p.x p.z d
    return some ⟨c, (p.x % d.width).toNat, p.y.toNat, (p.z % d.depth).toNat⟩

/-- The coordinates from one end to another, both included. -/
def span (lo hi : Int) : List Int := (List.range (hi + 1 - lo).toNat).map fun i : Nat => lo + i

/-- The positions of a box with both corners included, `x` innermost, then `z`, then `y`. -/
def box (p q : Pos) : List Pos :=
  (span p.y q.y).flatMap fun y =>
    (span p.z q.z).flatMap fun z => (span p.x q.x).map fun x => ⟨x, y, z⟩

end Pos

end VoxelWorld
