import VoxelWorld.Block.Builtin
import VoxelWorld.Headless.Args
import VoxelWorld.Text.Quoted
import VoxelWorld.World.Unload

/-!
# Headless.Run — a simulation without a window

1. `prepare` makes the world of a command line.
2. `Sim.tick` is one round: the chunks around the origin are made ready, far ones are
   let go and the world is drawn. The second round makes a few edits.
3. `Sim.finish` saves the world and sums up.
4. `run` is the whole: its exit code, the lines it reports and the disk it leaves.
-/

namespace VoxelWorld.Headless

/-! ## State -/

/-- Why a run ends early. -/
inductive Halt
  /-- The command line is wrong. -/
  | refused
  /-- The command line asked for help. -/
  | help
  /-- A file could not be read or written, or made no sense. -/
  | failed
  /-- A setting is not allowed, for the stated reason. -/
  | invalid (message : String)
  | fault (f : Fault)
deriving DecidableEq, Repr

/-- The exit code of a run that ends early. -/
def Halt.code : Halt → Nat
  | .refused => 2
  | .help => 0
  | .failed => 1
  | .invalid _ => 1
  | .fault _ => 101

/-- What is reported about an early end. -/
def Halt.lines : Halt → List String
  | .invalid message => [s!"Error: {Quoted.encode message}"]
  | _ => []

/-- A simulation under way. -/
structure Sim where
  args : Args
  world : World
  /-- Number of rounds drawn. -/
  frames : Nat := 0
  /-- Number of meshes swapped in. -/
  swaps : Nat := 0
  /-- What was reported, the last line first. -/
  report : List String := []
deriving Inhabited

/-- An early end with what was reported before it and the disk at that time. -/
structure Stop where
  halt : Halt
  report : List String
  disk : Disk

namespace Sim

/-- The simulation after a step of the world. -/
def after {α : Type} (s : Sim) (step : World → Checked (α × World)) : Except Stop (α × Sim) :=
  let ⟨args, world, frames, swaps, report⟩ := s
  let disk := world.disk
  match step world with
  | .error f => .error ⟨.fault f, report, disk⟩
  | .ok (a, world) => .ok (a, ⟨args, world, frames, swaps, report⟩)

/-- The simulation after a step that may fail to write. -/
def afterWrite {α : Type} (s : Sim) (step : World → Checked (Except IoError α × World)) :
    Except Stop (α × Sim) := do
  let (result, s) ← s.after step
  match result with
  | .error _ => throw ⟨.failed, s.report, s.world.disk⟩
  | .ok a => return (a, s)

def say (s : Sim) (line : String) : Sim := { s with report := line :: s.report }

end Sim

/-! ## Beginning -/

/-- The text of a file. -/
def readText (disk : Disk) (path : String) : Except Halt String :=
  match disk.fetch path with
  | .ok bytes =>
    match String.fromUTF8? ⟨bytes.toArray⟩ with
    | some text => .ok text
    | none => .error .failed
  | _ => .error .failed

def haltOfConfig : ConfigError → Halt
  | .malformed => .failed
  | .invalid message => .invalid message

/-- The configuration of a command line: that of its file, overridden by its flags. -/
def configOf (args : Args) (disk : Disk) : Except Halt WorldConfig := do
  let base ← match args.config with
    | some path => do (WorldConfig.ofToml (← readText disk path)).mapError haltOfConfig
    | none => pure {}
  let config : WorldConfig :=
    { base with
      seed := args.seed.getD base.seed
      viewRadius := (args.radius.map (max · 0)).getD base.viewRadius
      meshWorkers := args.workers.getD base.meshWorkers
      saveDir := args.saveDir <|> base.saveDir }
  config.validate.mapError haltOfConfig
  return config

/-- The blocks of a command line. -/
def registryOf (args : Args) (disk : Disk) : Except Halt Registry :=
  match args.blocks with
  | some path => do (Registry.ofToml (← readText disk path)).mapError haltOfConfig
  | none => return .builtin

/-- The first line of a report. -/
def greeting (c : WorldConfig) : String :=
  let chunk := s!"{c.chunk.x}x{c.chunk.y}x{c.chunk.z}"
  s!"world seed={c.seed} chunk={chunk} radius={c.viewRadius} mesh_workers={c.meshWorkers}"

/-- The simulation of a command line before its first round. -/
def prepare (args : Args) (disk : Disk) : Except Halt Sim := do
  let config ← configOf args disk
  let registry ← registryOf args disk
  let world := World.new config registry
  let workers := if config.meshWorkers > 0 then some (MeshWorkers.new config.meshWorkers) else none
  return { args, world := { world with disk, workers }, report := [greeting config] }

/-! ## Sample edits -/

/-- The highest of the lowest `height` cells of a column that is not air. -/
def topBelow (chunk : Chunk) (x z : Int) : Nat → Option Int
  | 0 => none
  | y + 1 => if chunk.block x y z ≠ air then some y else topBelow chunk x z y

/-- The highest block of a column that is not air; none where no chunk is resident. -/
def surfaceY (w : World) (x z : Int) : Checked (Option Int) := do
  match ← Pos.split ⟨x, 0, z⟩ w.dims with
  | none => return none
  | some cell =>
    match w.chunkAt? cell.chunk with
    | none => return none
    | some chunk => return topBelow chunk cell.x cell.z w.dims.height.toNat

/-- A torch on the ground. -/
def placeTorch (w : World) : Checked (List String × World) := do
  match ← surfaceY w 4 4 with
  | none => return ([], w)
  | some h =>
    let y := h + 1
    let (_, w) ← w.setBlock ⟨4, y, 4⟩ (w.registry.idOrAir "torch")
    let level ← w.lightAt ⟨4, y, 4⟩ .block
    return ([s!"torch at (4, {y}, 4): block light {level}"], w)

/-- A shaft of up to four blocks. -/
def digShaft (w : World) : Checked (List String × World) := do
  match ← surfaceY w 9 2 with
  | none => return ([], w)
  | some h =>
    let bottom := max (h - 3) 1
    let w ← (List.range (h + 1 - bottom).toNat).foldlM (fun (w : World) (i : Nat) => do
      return (← w.setBlock ⟨9, bottom + i, 2⟩ air).2) w
    let level ← w.lightAt ⟨9, bottom, 2⟩ .sky
    return ([s!"dug shaft at (9, 2) down to y={bottom}: sky light {level}"], w)

/-- A pane of glass on the ground. -/
def placeGlass (w : World) : Checked (List String × World) := do
  match ← surfaceY w (-3) 5 with
  | none => return ([], w)
  | some h =>
    let (_, w) ← w.setBlock ⟨-3, h + 1, 5⟩ (w.registry.idOrAir "glass")
    return ([], w)

namespace Sim

/-- The edits of the second round, with their reports. -/
def sampleEdits (s : Sim) : Except Stop Sim :=
  [placeTorch, digShaft, placeGlass].foldlM (fun (s : Sim) edit => do
    let (lines, s) ← s.after edit
    return lines.foldl say s) s

/-! ## Rounds -/

/-- The grid steps up to a radius, by rows. -/
def square (radius : Int) : List (Int × Int) :=
  let side := (List.range (2 * radius + 1).toNat).map fun i : Nat => (i : Int) - radius
  side.flatMap fun dz => side.map fun dx => (dx, dz)

/-- The chunks around a centre, the nearest first. The least radius of all has no opposite,
which is a fault; no chunk lies within any other negative one. -/
def ring (center : ChunkCoord) (radius : Int) : Checked (List ChunkCoord) := do
  let _ ← checkCoord (-radius)
  ((square radius).mergeSort fun a b =>
    a.1 * a.1 + a.2 * a.2 ≤ b.1 * b.1 + b.2 * b.2).mapM fun (dx, dz) => center.offset dx dz

/-- The origin of a round. -/
def originOf (args : Args) (tick : Nat) : Vec3 :=
  ⟨(UInt32.ofNat tick).toFloat32 * args.stride, 0, 0⟩

/-- The chunk at the origin of a round. -/
def centerOf (args : Args) (tick : Nat) (d : Dims) : Checked ChunkCoord :=
  let origin := originOf args tick
  ChunkCoord.containing (floatToCoord origin.x) (floatToCoord origin.z) d

/-- Makes the chunks around a centre ready. -/
def processRing (center : ChunkCoord) (w : World) : Checked (Unit × World) := do
  let chunks ← ring center w.config.viewRadius
  let w ← chunks.foldlM (fun (w : World) c => do return (← w.process c).2) w
  return ((), w)

/-- The radius up to which chunks are kept: one more than the view radius. -/
def keepRadius (w : World) : Checked Int := checkCoord (w.config.viewRadius + 1)

/-- Sets the visible flags by the view radius. -/
def showNear (w : World) : Checked (Unit × World) := do
  let reach := Float.ofInt (← keepRadius w) * Float.ofNat (max w.dims.x w.dims.z)
  return ((), ← w.updateVisibility reach)

/-- Collects the finished meshes. -/
def collect (w : World) : World := w.drain.2

/-- What comes before the first round: a view radius without a successor ends the run. -/
def setOut (s : Sim) : Except Stop Sim := do
  let (_, s) ← s.after fun w => do return (← keepRadius w, w)
  return s

/-- One round. -/
def tick (s : Sim) (n : Nat) : Except Stop Sim := do
  let s := { s with world := { s.world with origin := originOf s.args n } }
  let args := s.args
  let (center, s) ← s.after fun w => do
    return (← centerOf args n w.dims, w)
  let (_, s) ← s.after (processRing center)
  let s ← if n = 1 then s.sampleEdits else pure s
  let (_, s) ← s.afterWrite fun w => do
    w.unloadOutside center (← keepRadius w)
  let s := { s with world := collect s.world }
  let (_, s) ← s.after showNear
  let (swapped, s) ← s.after World.frame
  return { s with frames := s.frames + 1, swaps := s.swaps + swapped.length }

/-! ## The end -/

/-- The line about the world. -/
def worldLine (ticks saved : Nat) (st : WorldStats) : String :=
  let made := s!"generated={st.generated} loaded={st.loaded} relit={st.relit}"
  let meshes := s!"meshed={st.meshed} mesh_jobs={st.meshJobs}"
  s!"{ticks} ticks: {made} {meshes} unloaded={st.unloaded} saved={saved}"

/-- The line about drawing. -/
def renderLine (s : Sim) : String :=
  let st := s.world.gpu.stats
  let frames := s!"render: frames={s.frames} swaps={s.swaps}"
  s!"{frames} uploads={st.uploads} draws={st.draws} live_buffers={st.liveBuffers} quads={st.quads}"

/-- Saves the world and sums up. -/
def finish (s : Sim) : Except Stop Sim := do
  let (saved, s) ← s.afterWrite fun w => .ok w.saveAll
  let s := s.say (worldLine s.args.tickCount saved s.world.stats)
  return s.say s.renderLine

end Sim

/-! ## The whole -/

/-- What a run leaves behind. -/
structure Outcome where
  code : Nat
  lines : List String
  disk : Disk
deriving Inhabited

/-- The outcome of an early end. -/
def Stop.outcome (s : Stop) : Outcome :=
  { code := s.halt.code, lines := s.report.reverse ++ s.halt.lines, disk := s.disk }

/-- All rounds and the end. -/
def simulate (s : Sim) : Except Stop Sim := do
  let s ← s.setOut
  let s ← (List.range s.args.tickCount).foldlM Sim.tick s
  s.finish

/-- The request of a command line as settings. -/
def argsOf (arguments : List String) : Except Halt Args :=
  match parse {} arguments with
  | .run args => .ok args
  | .help => .error .help
  | .refused => .error .refused

/-- Runs a command line on a disk. -/
def run (arguments : List String) (disk : Disk) : Outcome :=
  match argsOf arguments >>= (prepare · disk) with
  | .error halt => (Stop.mk halt [] disk).outcome
  | .ok s =>
    match simulate s with
    | .error stop => stop.outcome
    | .ok s => { code := 0, lines := s.report.reverse, disk := s.world.disk }

end VoxelWorld.Headless
