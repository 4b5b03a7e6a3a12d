import VoxelWorld.Mesh.Face
import VoxelWorld.Storage.Blocks

/-!
# Mesh.Build — vertex streams

A `MeshBuild` holds the quads of one drawing pass as five flat streams: positions,
normals, texture coordinates, colours and triangle indices.

1. `addQuad` adds four vertices and two triangles that wind toward the normal.
2. `addFace` and `addBillboard` are the two things that a block is made of.
-/

namespace VoxelWorld

/-- A colour with its opacity, in bytes. -/
structure Rgba where
  r : UInt8
  g : UInt8
  b : UInt8
  a : UInt8
deriving DecidableEq, Repr, Inhabited

namespace Rgba

def toList (c : Rgba) : List UInt8 := [c.r, c.g, c.b, c.a]

/-- A grey without transparency. -/
def grey (v : UInt8) : Rgba := ⟨v, v, v, 255⟩

end Rgba

/-- The vertex streams of one pass. -/
structure MeshBuild where
  /-- Three numbers a vertex. -/
  positions : Array Float32 := #[]
  /-- Three numbers a vertex. -/
  normals : Array Float32 := #[]
  /-- Two numbers a vertex. -/
  texture : Array Float32 := #[]
  /-- Six vertex numbers a quad. -/
  indices : Array UInt32 := #[]
  /-- Four bytes a vertex. -/
  colors : Array UInt8 := #[]
deriving Inhabited

/-- A corner of a quad with its place on the texture. -/
structure Corner where
  point : Vec3
  u : Float32
  v : Float32
deriving Inhabited

namespace MeshBuild

def empty : MeshBuild := {}

def vertexCount (m : MeshBuild) : Nat := m.positions.size / 3

def quadCount (m : MeshBuild) : Nat := m.indices.size / 6

def isEmpty (m : MeshBuild) : Bool := m.indices.isEmpty

/-! ## Quads -/

/-- The corners in the order in which they are stored. They go round against the given
order, or with it where that does not wind toward `n`; the first stays first and the
third stays third. -/
def wind (a b c d n : Vec3) : List Corner :=
  let first : Corner := ⟨a, 0, 0⟩
  let second : Corner := ⟨d, 0, 1⟩
  let third : Corner := ⟨c, 1, 1⟩
  let fourth : Corner := ⟨b, 1, 0⟩
  if ((d - a).cross (c - a)).dot n < 0 then [first, fourth, third, second]
  else [first, second, third, fourth]

/-- Adds one vertex to all streams but the indices. -/
def addVertex (n : Vec3) (color : Rgba) (m : MeshBuild) (p : Corner) : MeshBuild :=
  { m with
    positions := m.positions.push p.point.x |>.push p.point.y |>.push p.point.z
    normals := m.normals.push n.x |>.push n.y |>.push n.z
    texture := m.texture.push p.u |>.push p.v
    colors := m.colors.push color.r |>.push color.g |>.push color.b |>.push color.a }

/-- Adds the two triangles over the four vertices from `base` on. -/
def addTriangles (base : UInt32) (m : MeshBuild) : MeshBuild :=
  { m with
    indices := m.indices.push base |>.push (base + 1) |>.push (base + 2)
      |>.push base |>.push (base + 2) |>.push (base + 3) }

/-- Adds the quad `a, b, c, d`, wound toward `n`. -/
def addQuad (m : MeshBuild) (a b c d n : Vec3) (color : Rgba) : MeshBuild :=
  let base := UInt32.ofNat m.vertexCount
  ((wind a b c d n).foldl (addVertex n color) m).addTriangles base

/-! ## Blocks -/

/-- Adds one side of the unit cell at `cell`. -/
def addFace (m : MeshBuild) (f : Face) (cell : Vec3) (color : Rgba) : MeshBuild :=
  let (a, b, c, d) := f.corners cell
  m.addQuad a b c d f.normal color

/-- The square root of two in single precision. -/
def sqrtTwo : Float32 := 1.41421356237309504880168872420969807856967187537694

/-- Adds an upright quad between two points on the ground, once for each side. -/
def addPlane (y : Float32) (color : Rgba) (m : MeshBuild) (ends : Vec3 × Vec3) : MeshBuild :=
  let (p, q) := ends
  let a : Vec3 := ⟨p.x, y + 1, p.z⟩
  let b : Vec3 := ⟨q.x, y + 1, q.z⟩
  let n := Vec3.shrink ⟨q.z - p.z, 0, p.x - q.x⟩ sqrtTwo
  (m.addQuad a b q p n color).addQuad a b q p (n.scale (-1)) color

/-- Adds two crossed upright quads, each seen from both sides. -/
def addBillboard (m : MeshBuild) (cell : Vec3) (color : Rgba) : MeshBuild :=
  let x := cell.x
  let y := cell.y
  let z := cell.z
  [((⟨x, y, z⟩, ⟨x + 1, y, z + 1⟩) : Vec3 × Vec3), (⟨x + 1, y, z⟩, ⟨x, y, z + 1⟩)].foldl
    (addPlane y color) m

/-- Makes room for a number of quads, which changes nothing that can be read. The room
itself must not be larger than an array can be; the positions need the most. -/
def reserve (m : MeshBuild) (quads : Nat) : Checked MeshBuild := do
  let numbers ← checkSize (quads * 12)
  if (m.positions.size + numbers) * 4 ≤ arrayLimit then return m
  else throw .capacity

def clear (_m : MeshBuild) : MeshBuild := empty

end MeshBuild

end VoxelWorld
