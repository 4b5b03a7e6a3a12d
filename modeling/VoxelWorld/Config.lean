import VoxelWorld.Block.List
import VoxelWorld.Dims

/-!
# Config — the settings of a world

1. `TerrainParams` shapes the generated ground.
2. `WorldConfig` adds the chunk size, the seed and where and how far to work.
3. `WorldConfig.validate` refuses chunk sizes that no world can have.
4. `WorldConfig.ofToml` reads settings; each one has a default.
-/

namespace VoxelWorld

/-- What the ground looks like. -/
structure TerrainParams where
  /-- Height of the ground where the noise is zero. -/
  seaLevel : Int := 48
  /-- Greatest rise above that height. -/
  amplitude : Float32 := 18.0
  frequency : Float32 := 0.015
  /-- Number of layers between the surface and the stone. -/
  dirtDepth : Int := 3
  /-- Chance of a tree on a column. -/
  treeChance : Float32 := 0.01
  /-- Chance of a plant on a column. -/
  grassChance : Float32 := 0.08
  /-- Number of ore veins in a chunk. -/
  oreVeins : Nat := 6
deriving Inhabited

/-- The settings of a world. -/
structure WorldConfig where
  chunk : Dims := .standard
  seed : Int := 0
  /-- Directory of the chunk files; without one nothing is kept. -/
  saveDir : Option String := none
  /-- Distance in chunks up to which the world is kept ready. -/
  viewRadius : Int := 4
  /-- Number of threads that build meshes; zero builds them in place. -/
  meshWorkers : Nat := 2
  terrain : TerrainParams := {}
deriving Inhabited

namespace WorldConfig

def validate (c : WorldConfig) : Except ConfigError Unit :=
  let d := c.chunk
  if d.x = 0 ∨ d.y = 0 ∨ d.z = 0 then
    .error (.invalid s!"chunk dimensions must be non-zero, got {d.x}x{d.y}x{d.z}")
  else if d.x > 2147483647 ∨ d.y > 2147483647 ∨ d.z > 2147483647 then
    .error (.invalid "chunk dimensions overflow i32")
  else .ok ()

end WorldConfig

/-! ## Reading -/

/-- A size in a configuration. -/
def Toml.Node.size? : Toml.Node → Option Nat := Toml.Node.natUpTo? 9223372036854775807

def Dims.ofNode? (v : Toml.Node) : Option Dims := do
  let field ← v.fields?
  let x ← (field "x" 0).bind Toml.Node.size?
  let y ← (field "y" 1).bind Toml.Node.size?
  let z ← (field "z" 2).bind Toml.Node.size?
  return ⟨x, y, z⟩

def TerrainParams.ofNode? (v : Toml.Node) : Option TerrainParams := do
  let field ← v.fields?
  let base : TerrainParams := {}
  let seaLevel ← Toml.orElse? Toml.Node.coord? base.seaLevel (field "sea_level" 0)
  let amplitude ← Toml.orElse? Toml.Node.float32? base.amplitude (field "amplitude" 1)
  let frequency ← Toml.orElse? Toml.Node.float32? base.frequency (field "frequency" 2)
  let dirtDepth ← Toml.orElse? Toml.Node.coord? base.dirtDepth (field "dirt_depth" 3)
  let treeChance ← Toml.orElse? Toml.Node.float32? base.treeChance (field "tree_chance" 4)
  let grassChance ← Toml.orElse? Toml.Node.float32? base.grassChance (field "grass_chance" 5)
  let oreVeins ← Toml.orElse? (Toml.Node.natUpTo? 4294967295) base.oreVeins (field "ore_veins" 6)
  return { seaLevel, amplitude, frequency, dirtDepth, treeChance, grassChance, oreVeins }

namespace WorldConfig

/-- The settings in the table of a document. -/
def ofEntries? (root : Toml.Entries) : Option WorldConfig := do
  let base : WorldConfig := {}
  let chunk ← Toml.orElse? Dims.ofNode? base.chunk (root.get? "chunk")
  let seed ← Toml.orElse? Toml.Node.coord? base.seed (root.get? "seed")
  let saveDir ← Toml.optional? Toml.Node.str? (root.get? "save_dir")
  let viewRadius ← Toml.orElse? Toml.Node.coord? base.viewRadius (root.get? "view_radius")
  let meshWorkers ← Toml.orElse? Toml.Node.size? base.meshWorkers (root.get? "mesh_workers")
  let terrain ← Toml.orElse? TerrainParams.ofNode? base.terrain (root.get? "terrain")
  return { chunk, seed, saveDir, viewRadius, meshWorkers, terrain }

/-- The valid settings that a text holds. -/
def ofToml (text : String) : Except ConfigError WorldConfig :=
  match (Toml.parse? text).bind ofEntries? with
  | none => .error .malformed
  | some c => do
    c.validate
    return c

end WorldConfig

end VoxelWorld
