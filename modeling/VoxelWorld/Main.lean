import VoxelWorld.Headless.Run

/-!
# Main — the command line

Reads the files that a run may need into a `Disk`, runs the simulation round by round
with a pause after each, reports its lines and writes the changed files back.
-/

namespace VoxelWorld.Main

open Headless

/-! ## Files in -/

/-- The disk with one more file, if it is not on it yet and can be read. -/
def withFile (disk : Disk) (path : String) : IO Disk := do
  if disk.contains path then return disk
  try
    let bytes ← IO.FS.readBinFile path
    return disk.put path bytes.toList
  catch _ => return disk

/-- How far from the view a round may look for chunk files. -/
def margin : Int := 4

/-- The chunks that a round may load: those around the origin, and those around the sample
edits. -/
def reach (s : Sim) (center : ChunkCoord) : List ChunkCoord :=
  let around (c : ChunkCoord) (radius : Int) : List ChunkCoord :=
    (Sim.square radius).map fun (dx, dz) => ⟨c.x + dx, c.z + dz⟩
  let near (x z : Int) : List ChunkCoord :=
    match ChunkCoord.containing x z s.world.dims with
    | .ok c => around c margin
    | .error _ => []
  around center (s.world.config.viewRadius + margin) ++ near 4 4 ++ near 9 2 ++ near (-3) 5

/-- The simulation with the chunk files that its next round may load. -/
def withChunkFiles (s : Sim) (tick : Nat) : IO Sim := do
  match s.world.files, Sim.centerOf s.args tick s.world.dims with
  | some files, .ok center =>
    let paths := Path.direct files.root :: (reach s center).map files.path
    let disk ← paths.foldlM withFile s.world.disk
    return { s with world := { s.world with disk } }
  | _, _ => return s

/-! ## Files out -/

/-- Writes the files that differ from those of an earlier disk. -/
def writeBack (before after : Disk) : IO Unit :=
  after.listing.forM fun (path, bytes) => do
    if before.get? path != some bytes then
      match (Path.ancestors path).getLast? with
      | some dir => if !dir.isEmpty then IO.FS.createDirAll dir
      | none => pure ()
      IO.FS.writeBinFile path ⟨bytes.toArray⟩

/-! ## Running -/

/-- Takes the rounds with these numbers, with a pause after each. -/
def takeRounds (s : Sim) : List Nat → IO (Except Stop Sim)
  | [] => return .ok s
  | n :: rest => do
    let s ← withChunkFiles s n
    match s.tick n with
    | .error stop => do
      writeBack s.world.disk stop.disk
      return .error stop
    | .ok next => do
      writeBack s.world.disk next.world.disk
      IO.sleep (UInt32.ofNat next.args.pause)
      takeRounds next rest

/-- The outcome of a simulation that is ready to start. -/
def simulateSlowly (s : Sim) : IO Outcome := do
  match s.setOut with
  | .error stop => return stop.outcome
  | .ok s =>
    match ← takeRounds s (List.range s.args.tickCount) with
    | .error stop => return stop.outcome
    | .ok s =>
      match s.finish with
      | .error stop => do
        writeBack s.world.disk stop.disk
        return stop.outcome
      | .ok done => do
        writeBack s.world.disk done.world.disk
        return { code := 0, lines := done.report.reverse, disk := done.world.disk }

/-- Runs a command line. -/
def execute (arguments : List String) : IO Outcome := do
  match argsOf arguments with
  | .error halt => return (Stop.mk halt [] .empty).outcome
  | .ok args =>
    let disk ← (args.config.toList ++ args.blocks.toList).foldlM withFile Disk.empty
    match prepare args disk with
    | .error halt => return (Stop.mk halt [] disk).outcome
    | .ok s => simulateSlowly s

end VoxelWorld.Main

/-- Reports go to the error stream; the result is the exit code. -/
def main (arguments : List String) : IO UInt32 := do
  let outcome ← VoxelWorld.Main.execute arguments
  outcome.lines.forM fun line => IO.eprintln line
  return UInt32.ofNat outcome.code
