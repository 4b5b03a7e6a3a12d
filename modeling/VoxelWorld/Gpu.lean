import VoxelWorld.Mesh.Geometry

/-!
# Gpu — a device that keeps a record

1. `Gpu` hands out buffer numbers from zero on and records every call in order.
2. `Gpu.stats` counts the record.
-/

namespace VoxelWorld

/-- One call to the device. -/
inductive GpuCall
  | upload (buffer quads : Nat)
  | release (buffer : Nat)
  | draw (buffer : Nat) (pass : Pass)
deriving DecidableEq, Repr, Inhabited

/-- The device: the number of the next buffer and the calls so far. -/
structure Gpu where
  next : Nat := 0
  calls : Array GpuCall := #[]
deriving Inhabited

/-- What the calls of a device add up to. -/
structure GpuStats where
  uploads : Nat := 0
  releases : Nat := 0
  draws : Nat := 0
  quads : Nat := 0
deriving DecidableEq, Repr, Inhabited

namespace GpuStats

/-- Buffers uploaded and not released. -/
def liveBuffers (s : GpuStats) : Nat := s.uploads - s.releases

def count (s : GpuStats) : GpuCall → GpuStats
  | .upload _ quads => { s with uploads := s.uploads + 1, quads := s.quads + quads }
  | .release _ => { s with releases := s.releases + 1 }
  | .draw _ _ => { s with draws := s.draws + 1 }

end GpuStats

namespace Gpu

def new : Gpu := {}

/-- Uploads the streams of one pass into a buffer of its own. -/
def upload (g : Gpu) (m : MeshBuild) : Nat × Gpu :=
  (g.next, { next := g.next + 1, calls := g.calls.push (.upload g.next m.quadCount) })

def release (g : Gpu) (buffer : Nat) : Gpu := { g with calls := g.calls.push (.release buffer) }

def draw (g : Gpu) (buffer : Nat) (pass : Pass) : Gpu :=
  { g with calls := g.calls.push (.draw buffer pass) }

def stats (g : Gpu) : GpuStats := g.calls.foldl GpuStats.count {}

end Gpu

end VoxelWorld
