import VoxelWorld.Dims
import VoxelWorld.Block.Basic

/-!
# Storage.Blocks — one byte for each cell

`BlockArray` holds as many bytes as the chunk has cells, in the order of
`Dims.index?`. Positions that are no cells read as `none` and refuse writes.
-/

namespace VoxelWorld

/-- The largest number of bytes in one array. -/
def arrayLimit : Nat := 9223372036854775807

/-- An array of zero bytes. -/
def zeroBytes (n : Nat) : Checked (Array UInt8) :=
  if n ≤ arrayLimit then .ok (Array.replicate n 0) else .error .capacity

theorem size_of_zeroBytes {n : Nat} {a : Array UInt8} (h : zeroBytes n = .ok a) :
    a.size = n := by
  unfold zeroBytes at h
  split at h
  · cases h
    exact Array.size_replicate
  · cases h

/-- The block ids of a chunk. -/
structure BlockArray (d : Dims) where
  bytes : Array BlockId
  size_eq : bytes.size = d.cells

namespace BlockArray

variable {d : Dims}

/-- All air. -/
def new (d : Dims) : Checked (BlockArray d) :=
  match hv : d.volume with
  | .error e => .error e
  | .ok n =>
    match hb : zeroBytes n with
    | .error e => .error e
    | .ok bytes => .ok ⟨bytes, (size_of_zeroBytes hb).trans (Dims.volume_eq_ok hv)⟩

@[inline] def get? (a : BlockArray d) (x y z : Int) : Option BlockId :=
  match h : d.index? x y z with
  | none => none
  | some i =>
    have : i < a.bytes.size := a.size_eq ▸ Dims.index?_lt h
    some a.bytes[i]

/-- The block of a cell; air outside. -/
@[inline] def get (a : BlockArray d) (x y z : Int) : BlockId := (a.get? x y z).getD air

/-- The array with one cell written; the same array if the position is no cell. -/
@[inline] def set (a : BlockArray d) (x y z : Int) (v : BlockId) : BlockArray d :=
  match d.index? x y z with
  | none => a
  | some i => ⟨a.bytes.set! i v, by simp [a.size_eq]⟩

/-- Writes a cell and gives what it held before. -/
def replace (a : BlockArray d) (x y z : Int) (v : BlockId) : Option BlockId × BlockArray d :=
  (a.get? x y z, a.set x y z v)

/-- Writes one byte by its number; refused past the end. -/
def setByte? (a : BlockArray d) (i : Nat) (v : UInt8) : Option (BlockArray d) :=
  if i < a.bytes.size then some ⟨a.bytes.set! i v, by simp [a.size_eq]⟩ else none

/-- The array that holds the given bytes, if their number fits. -/
def ofBytes? (bytes : Array UInt8) : Option (BlockArray d) :=
  if h : bytes.size = d.cells then some ⟨bytes, h⟩ else none

/-- Counts one more byte at the end of a list of runs, the last run first. -/
def extendRuns (runs : List (UInt8 × Nat)) (b : UInt8) : List (UInt8 × Nat) :=
  match runs with
  | [] => [(b, 1)]
  | (last, n) :: rest => if last = b then (last, n + 1) :: rest else (b, 1) :: runs

/-- The blocks as runs of equal ids in storage order. -/
def runs (a : BlockArray d) : List (BlockId × Nat) := (a.bytes.foldl extendRuns []).reverse

end BlockArray

end VoxelWorld
