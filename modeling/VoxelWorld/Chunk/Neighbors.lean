import VoxelWorld.Dims

/-!
# Chunk.Neighbors — the eight chunks around one

1. `neighborOffsets` lists the grid steps to the neighbours in a fixed order.
2. `boundaryNeighbors` tells which of them touch a column: those across an edge on
   which the column lies, and those across a corner if it lies on both its edges.
-/

namespace VoxelWorld

/-- Grid steps to the neighbours: the four sides, then the four corners. -/
def neighborOffsets : List (Int × Int) :=
  [(1, 0), (-1, 0), (0, 1), (0, -1), (1, 1), (-1, -1), (-1, 1), (1, -1)]

/-- The places in `neighborOffsets` of the chunks across the edges on which a column lies. -/
def touchedNeighbors (minX maxX minZ maxZ : Bool) : List Nat :=
  [(maxX, 0), (minX, 1), (maxZ, 2), (minZ, 3), (maxX && maxZ, 4), (minX && minZ, 5),
    (minX && maxZ, 6), (maxX && minZ, 7)].filterMap fun (touches, i) =>
      if touches then some i else none

/-- The places in `neighborOffsets` of the chunks that touch the local column `(x, z)`. -/
def boundaryNeighbors (x z : Nat) (d : Dims) : Checked (List Nat) := do
  let nextX ← checkSize (x + 1)
  let nextZ ← checkSize (z + 1)
  return touchedNeighbors (x == 0) (nextX == d.x) (z == 0) (nextZ == d.z)

end VoxelWorld
