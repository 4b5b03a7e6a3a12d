import VoxelWorld.Block.Registry
import VoxelWorld.Chunk.Lifecycle
import VoxelWorld.Coord
import VoxelWorld.Light.Kind

/-!
# Chunk.Basic — a chunk of the world

A chunk holds the blocks and the light of its cells together with its `Lifecycle`.

1. Reads outside the cells give air and the sentinel of the light channel.
2. `setBlock` and `setLight` mark the chunk dirty when they change a cell;
   `putLight` writes without a mark.
3. The rest places the chunk in space.
-/

namespace VoxelWorld

/-- The cells and the state of one chunk. -/
structure Chunk where
  coord : ChunkCoord
  dims : Dims
  blocks : BlockArray dims
  skyLight : NibbleArray dims
  blockLight : NibbleArray dims
  life : Lifecycle

namespace Chunk

instance : Inhabited Chunk := ⟨⟨default, ⟨0, 0, 0⟩, ⟨#[], rfl⟩, ⟨#[], rfl⟩, ⟨#[], rfl⟩, {}⟩⟩

/-- A fresh chunk: air without light. -/
def new (coord : ChunkCoord) (dims : Dims) : Checked Chunk := do
  let blocks ← BlockArray.new dims
  let skyLight ← NibbleArray.new dims
  let blockLight ← NibbleArray.new dims
  return { coord, dims, blocks, skyLight, blockLight, life := .new }

/-! ## Cells -/

@[inline] def block (c : Chunk) (x y z : Int) : BlockId := c.blocks.get x y z

@[inline] def lightArray (c : Chunk) : LightKind → NibbleArray c.dims
  | .sky => c.skyLight
  | .block => c.blockLight

@[inline] def light (c : Chunk) (x y z : Int) (kind : LightKind) : Nat :=
  ((c.lightArray kind).get? x y z).getD kind.sentinel

/-- Writes a light level and nothing else. -/
@[inline] def putLight (c : Chunk) (x y z : Int) (kind : LightKind) (v : Nat) : Chunk :=
  match kind with
  | .sky => { c with skyLight := c.skyLight.set x y z v }
  | .block => { c with blockLight := c.blockLight.set x y z v }

/-- Writes a block and nothing else. -/
@[inline] def putBlock (c : Chunk) (x y z : Int) (id : BlockId) : Chunk :=
  { c with blocks := c.blocks.set x y z id }

/-- Whether writing a block would change a cell. -/
@[inline] def blockDiffers (c : Chunk) (x y z : Int) (id : BlockId) : Bool :=
  (c.blocks.get? x y z).any (· ≠ id)

/-- Whether writing a light level would change a cell. -/
@[inline] def lightDiffers (c : Chunk) (x y z : Int) (kind : LightKind) (v : Nat) : Bool :=
  ((c.lightArray kind).get? x y z).any (· ≠ min v maxLight)

/-! ## Flags -/

def withDirty (c : Chunk) (b : Bool) : Chunk := { c with life := { c.life with dirty := b } }

def withLightDirty (c : Chunk) (b : Bool) : Chunk :=
  { c with life := { c.life with lightDirty := b } }

def withVisible (c : Chunk) (b : Bool) : Chunk :=
  { c with life := { c.life with visible := b } }

/-- Ends the fresh state of a chunk. -/
def markGenerated (c : Chunk) : Chunk := { c with life := { c.life with fresh := false } }

def isFresh (c : Chunk) : Bool := c.life.fresh

def isDirty (c : Chunk) : Bool := c.life.dirty

def isLightDirty (c : Chunk) : Bool := c.life.lightDirty

def isDisposed (c : Chunk) : Bool := c.life.isDisposed

/-! ## Edits -/

/-- Writes a block. A change makes the chunk dirty. -/
def setBlock (c : Chunk) (x y z : Int) (id : BlockId) : Bool × Chunk :=
  if c.blockDiffers x y z id then (true, (c.putBlock x y z id).withDirty true) else (false, c)

/-- Writes a light level of at most `maxLight`. A change makes the chunk dirty. -/
def setLight (c : Chunk) (x y z : Int) (kind : LightKind) (v : Nat) : Bool × Chunk :=
  if c.lightDiffers x y z kind v then (true, (c.putLight x y z kind v).withDirty true)
  else (false, c)

/-- Whether no block from `y` up to the top stops light. -/
def seesSky (c : Chunk) (x y z : Int) (reg : Registry) : Bool :=
  let bottom := max y 0
  (List.range (c.dims.height - bottom).toNat).all fun i =>
    reg.isTranslucent (c.block x (bottom + i) z)

/-! ## Place in space -/

@[inline] def worldX (c : Chunk) : Checked Int := c.coord.worldX c.dims

@[inline] def worldZ (c : Chunk) : Checked Int := c.coord.worldZ c.dims

/-- The box around the cells. -/
def box (c : Chunk) : Checked Aabb := do
  let half : Vec3 :=
    ⟨sizeToFloat (c.dims.x / 2), sizeToFloat (c.dims.y / 2), sizeToFloat (c.dims.z / 2)⟩
  let x ← c.worldX
  let z ← c.worldZ
  return ⟨⟨coordToFloat x + half.x, half.y, coordToFloat z + half.z⟩, half⟩

/-- Distance in the plane from a point to the first block column of the chunk. -/
def distanceTo (c : Chunk) (origin : Vec3) : Checked Float := do
  let x ← c.worldX
  let z ← c.worldZ
  return origin.planarDistance (Float.ofInt x) (Float.ofInt z)

/-! ## Text -/

/-- The short written form. -/
def text (c : Chunk) : String := s!"Chunk at {c.coord.text}"

/-- The written form with sizes and flags. -/
def describe (c : Chunk) : String :=
  let coord := s!"ChunkCoord \x7b x: {c.coord.x}, z: {c.coord.z} \x7d"
  let dims := s!"ChunkDims \x7b x: {c.dims.x}, y: {c.dims.y}, z: {c.dims.z} \x7d"
  let flags := s!"dirty: {c.isDirty}, light_dirty: {c.isLightDirty}, fresh: {c.isFresh}"
  s!"Chunk \x7b coord: {coord}, dims: {dims}, {flags} \x7d"

end Chunk

end VoxelWorld
