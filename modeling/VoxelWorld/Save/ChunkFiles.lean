import VoxelWorld.Chunk.Codec
import VoxelWorld.Save.Disk

/-!
# Save.ChunkFiles — chunks on a disk

1. `load` reads the chunk of a coordinate. A file that holds another chunk is refused.
2. `save` writes a temporary file and moves it into place when it is complete, so that
   the file of a chunk is never half written.
-/

namespace VoxelWorld

/-- The files below a root. -/
structure ChunkFiles where
  root : String
deriving DecidableEq, Repr, Inhabited

namespace ChunkFiles

def path (f : ChunkFiles) (c : ChunkCoord) : String := Path.fileFor f.root c

def exists? (f : ChunkFiles) (disk : Disk) (c : ChunkCoord) : Bool := disk.contains (f.path c)

/-! ## Loading -/

/-- The text of a refusal to load one chunk as another. -/
def misplaced (path : String) (found wanted : ChunkCoord) : String :=
  s!"{path} holds chunk {found.text} instead of {wanted.text}"

/-- The chunk that was saved for a coordinate, or `none`. -/
def load (f : ChunkFiles) (disk : Disk) (c : ChunkCoord) (d : Dims) :
    Checked (Except IoError (Option Chunk)) := do
  match disk.read (f.path c) with
  | .error e => return .error e
  | .ok none => return .ok none
  | .ok (some bytes) =>
    match ← Chunk.read? d bytes with
    | none => return .error .unexpectedEnd
    | some (chunk, _) =>
      if chunk.coord = c then return .ok (some chunk)
      else return .error (.invalidData (misplaced (f.path c) chunk.coord c))

/-! ## Saving -/

/-- The steps that save a chunk; the last one puts the file in its place. -/
def saveSteps (f : ChunkFiles) (chunk : Chunk) : List Disk.Step :=
  let temporary := Path.temporaryFor f.root chunk.coord
  [.makeDirs (Path.dirFor f.root chunk.coord), .create temporary,
    .append temporary chunk.toBytes, .rename temporary (f.path chunk.coord)]

def save (f : ChunkFiles) (disk : Disk) (chunk : Chunk) : Except IoError Unit × Disk :=
  disk.run (f.saveSteps chunk)

end ChunkFiles

end VoxelWorld
