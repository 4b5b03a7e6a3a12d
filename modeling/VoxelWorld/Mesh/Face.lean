import VoxelWorld.Geometry

/-!
# Mesh.Face — the six sides of a block

Each side has a grid step, a normal and a fixed shade that keeps the sides apart under
even light. `Face.all` is the order in which the sides of a block are drawn.
-/

namespace VoxelWorld

/-- A side of a block. -/
inductive Face
  | posY
  | negY
  | posX
  | negX
  | posZ
  | negZ
deriving DecidableEq, Repr, Inhabited

namespace Face

def all : List Face := [posY, negY, posX, negX, posZ, negZ]

def index : Face → Nat
  | posY => 0
  | negY => 1
  | posX => 2
  | negX => 3
  | posZ => 4
  | negZ => 5

def name : Face → String
  | posY => "PosY"
  | negY => "NegY"
  | posX => "PosX"
  | negX => "NegX"
  | posZ => "PosZ"
  | negZ => "NegZ"

def ofName? (s : String) : Option Face := all.find? (·.name == s)

/-- The grid step out through the side. -/
@[inline] def step : Face → Int × Int × Int
  | posY => (0, 1, 0)
  | negY => (0, -1, 0)
  | posX => (1, 0, 0)
  | negX => (-1, 0, 0)
  | posZ => (0, 0, 1)
  | negZ => (0, 0, -1)

def normal (f : Face) : Vec3 :=
  let (dx, dy, dz) := f.step
  ⟨coordToFloat dx, coordToFloat dy, coordToFloat dz⟩

def shade : Face → Float32
  | posY => 1.0
  | negY => 0.55
  | posX => 0.8
  | negX => 0.8
  | posZ => 0.7
  | negZ => 0.7

/-- The corners of the side of the unit cell at `c`, going round. -/
def corners (f : Face) (c : Vec3) : Vec3 × Vec3 × Vec3 × Vec3 :=
  let x := c.x
  let y := c.y
  let z := c.z
  match f with
  | posY => (⟨x, y + 1, z⟩, ⟨x + 1, y + 1, z⟩, ⟨x + 1, y + 1, z + 1⟩, ⟨x, y + 1, z + 1⟩)
  | negY => (⟨x, y, z + 1⟩, ⟨x + 1, y, z + 1⟩, ⟨x + 1, y, z⟩, ⟨x, y, z⟩)
  | posX => (⟨x + 1, y + 1, z + 1⟩, ⟨x + 1, y + 1, z⟩, ⟨x + 1, y, z⟩, ⟨x + 1, y, z + 1⟩)
  | negX => (⟨x, y + 1, z⟩, ⟨x, y + 1, z + 1⟩, ⟨x, y, z + 1⟩, ⟨x, y, z⟩)
  | posZ => (⟨x + 1, y + 1, z + 1⟩, ⟨x, y + 1, z + 1⟩, ⟨x, y, z + 1⟩, ⟨x + 1, y, z + 1⟩)
  | negZ => (⟨x, y + 1, z⟩, ⟨x + 1, y + 1, z⟩, ⟨x + 1, y, z⟩, ⟨x, y, z⟩)

end Face

end VoxelWorld
