import VoxelWorld.Chunk.Codec
import VoxelWorld.Save.Disk

/-!
# Save.Stream — chunks in streams and buffers of bytes

1. `Chunk.readFrom` reads one chunk from the front of a stream; the next one starts where it
   ends.
2. `Chunk.writeInto` writes one chunk into a buffer of a fixed size.
-/

namespace VoxelWorld.Chunk

/-- Reads a chunk from the front of a stream and gives the rest of the stream. -/
def readFrom (d : Dims) (bytes : List UInt8) :
    Checked (Except IoError (Chunk × List UInt8)) := do
  match ← read? d bytes with
  | none => return .error .unexpectedEnd
  | some (c, rest) => return .ok (c, rest)

/-- Writes a chunk into a buffer with a number of free bytes and gives the number left. -/
def writeInto (c : Chunk) (room : Nat) : Except IoError Nat :=
  match c.writeInto? room with
  | none => .error .noRoom
  | some left => .ok left

end VoxelWorld.Chunk
