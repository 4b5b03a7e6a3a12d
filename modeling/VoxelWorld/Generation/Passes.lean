import VoxelWorld.Chunk.Basic

/-!
# Generation.Passes — what fills a fresh chunk

A pass gets the place of a chunk and its blocks and gives the blocks back. It knows
nothing of flags, neighbours or light.

1. `passNames` are the passes of a chunk in their order.
2. `GeneratorSet` holds passes by name; `runAll` skips the names it lacks.
3. `BoxFill` is a pass that fills boxes.
-/

namespace VoxelWorld

/-- A pass over the blocks of a chunk. -/
abbrev Generator := ChunkCoord → (d : Dims) → BlockArray d → Checked (BlockArray d)

/-- The names of the passes in the order in which they run. -/
def passNames : List String := ["terrain", "resources", "forest"]

/-- Passes by name. -/
structure GeneratorSet where
  passes : List (String × Generator)

namespace GeneratorSet

def empty : GeneratorSet := ⟨[]⟩

instance : Inhabited GeneratorSet := ⟨empty⟩

/-- The set with one more pass; a pass of the same name is replaced. -/
def insert (s : GeneratorSet) (name : String) (g : Generator) : GeneratorSet :=
  ⟨(name, g) :: s.passes⟩

def get? (s : GeneratorSet) (name : String) : Option Generator := s.passes.lookup name

/-- Runs one pass, if the set has it. -/
def run (s : GeneratorSet) (coord : ChunkCoord) (d : Dims) (blocks : BlockArray d)
    (name : String) : Checked (BlockArray d) :=
  match s.get? name with
  | none => return blocks
  | some g => g coord d blocks

/-- Runs all passes of a chunk. -/
def runAll (s : GeneratorSet) (coord : ChunkCoord) (d : Dims) (blocks : BlockArray d) :
    Checked (BlockArray d) :=
  passNames.foldlM (s.run coord d) blocks

end GeneratorSet

/-- Runs a pass on the blocks of a chunk. -/
def Chunk.populate (c : Chunk)
    (pass : ChunkCoord → (d : Dims) → BlockArray d → Checked (BlockArray d)) :
    Checked Chunk := do
  let ⟨coord, dims, blocks, skyLight, blockLight, life⟩ := c
  let blocks ← pass coord dims blocks
  return ⟨coord, dims, blocks, skyLight, blockLight, life⟩

/-! ## Boxes -/

/-- A box of cells, its two ends included, to be filled with one block. -/
structure BoxFill where
  x0 : Int
  y0 : Int
  z0 : Int
  x1 : Int
  y1 : Int
  z1 : Int
  id : BlockId
  /-- The only chunk that is filled; without it, every chunk. -/
  only : Option ChunkCoord := none
deriving Inhabited

namespace BoxFill

/-- The coordinates from `lo` to `hi` that lie on a side. -/
def clipped (lo hi : Int) (side : Nat) : List Int :=
  let first := max lo 0
  (List.range (min (hi + 1) side - first).toNat).map fun i : Nat => first + i

def fill {d : Dims} (b : BoxFill) (blocks : BlockArray d) : BlockArray d :=
  (clipped b.y0 b.y1 d.y).foldl (fun blocks y =>
    (clipped b.z0 b.z1 d.z).foldl (fun blocks z =>
      (clipped b.x0 b.x1 d.x).foldl (fun (blocks : BlockArray d) x =>
        blocks.set x y z b.id) blocks) blocks) blocks

/-- The pass that fills boxes one after the other. -/
def generator (boxes : List BoxFill) : Generator := fun coord _ blocks =>
  return boxes.foldl (fun blocks b =>
    if b.only.all (· = coord) then b.fill blocks else blocks) blocks

end BoxFill

end VoxelWorld
