import VoxelWorld.Chunk.Basic

/-!
# Chunk.Codec — chunks as bytes

The layout is: `x` and `z` of the chunk as big-endian words, a byte of flags whose
lowest bit says that the chunk is light dirty, the block ids, the packed sky light and
the packed block light.

1. `toBytes` gives the bytes of a chunk and `encodedLength` their number.
2. `writeTo` writes the same bytes part by part, to whatever takes bytes: a list that grows
   (`append`) or a buffer that can run full (`fill`).
3. `read?` reads one from the front of a stream and gives the rest of the stream. A chunk
   that was read is dirty and not fresh, and has no mesh.
-/

namespace VoxelWorld

/-! ## Words -/

/-- The four bytes of a coordinate, the highest first. -/
def wordBytes (n : Int) : List UInt8 :=
  let w := (n % 4294967296).toNat
  [UInt8.ofNat (w / 16777216), UInt8.ofNat (w / 65536), UInt8.ofNat (w / 256), UInt8.ofNat w]

/-- The coordinate of four bytes. -/
def wordOfBytes (a b c d : UInt8) : Int :=
  Int.bmod (a.toNat * 16777216 + b.toNat * 65536 + c.toNat * 256 + d.toNat : Nat) 4294967296

namespace Chunk

/-! ## Writing -/

/-- The byte of flags. -/
def flagByte (c : Chunk) : UInt8 := if c.isLightDirty then 1 else 0

def header (c : Chunk) : List UInt8 := wordBytes c.coord.x ++ wordBytes c.coord.z ++ [c.flagByte]

def toBytes (c : Chunk) : List UInt8 :=
  c.header ++ (c.blocks.bytes.toList ++ (c.skyLight.bytes.toList ++ c.blockLight.bytes.toList))

/-- Writes a chunk, one part after the other. -/
def writeTo {m : Type → Type} [Monad m] (c : Chunk) (write : List UInt8 → m Unit) : m Unit := do
  write c.header
  write c.blocks.bytes.toList
  write c.skyLight.bytes.toList
  write c.blockLight.bytes.toList

/-- Writes to the end of a list. -/
def append (bytes : List UInt8) : StateM (List UInt8) Unit := modify (· ++ bytes)

/-- Writes into a buffer with a number of free bytes, which must be enough. -/
def fill (bytes : List UInt8) : StateT Nat Option Unit := fun room =>
  if bytes.length ≤ room then some ((), room - bytes.length) else none

/-- Writes a chunk into a buffer with a number of free bytes and gives the number left;
`none` if the buffer is too small. -/
def writeInto? (c : Chunk) (room : Nat) : Option Nat := (c.writeTo fill room).map Prod.snd

/-! ## Reading -/

/-- The first `n` bytes of a stream and the rest. -/
def takeBytes? (n : Nat) (bytes : List UInt8) : Option (List UInt8 × List UInt8) :=
  let (front, rest) := bytes.splitAt n
  if front.length = n then some (front, rest) else none

/-- The two coordinates and the flags in front of a chunk. -/
def readHeader? : List UInt8 → Option ((ChunkCoord × UInt8) × List UInt8)
  | a :: b :: c :: d :: e :: f :: g :: h :: flags :: rest =>
    some ((⟨wordOfBytes a b c d, wordOfBytes e f g h⟩, flags), rest)
  | _ => none

/-- The three arrays of a chunk. -/
def readArrays? (d : Dims) (bytes : List UInt8) :
    Option ((BlockArray d × NibbleArray d × NibbleArray d) × List UInt8) := do
  let half := (d.cells + 1) / 2
  let (blocks, bytes) ← takeBytes? d.cells bytes
  let (sky, bytes) ← takeBytes? half bytes
  let (light, bytes) ← takeBytes? half bytes
  let blocks ← BlockArray.ofBytes? blocks.toArray
  let sky ← NibbleArray.ofBytes? sky.toArray
  let light ← NibbleArray.ofBytes? light.toArray
  return ((blocks, sky, light), bytes)

/-- The state of a chunk that was read. -/
def lifeOfFlags (flags : UInt8) : Lifecycle :=
  { Lifecycle.new with dirty := true, fresh := false, lightDirty := flags &&& 1 = 1 }

/-- Reads a chunk from the front of a stream; `none` if the stream ends too early. Room
for the chunk is made as soon as its header is there. -/
def read? (dims : Dims) (bytes : List UInt8) : Checked (Option (Chunk × List UInt8)) :=
  match readHeader? bytes with
  | none => return none
  | some ((coord, flags), bytes) => do
    let _ ← Chunk.new coord dims
    return (readArrays? dims bytes).map fun ((blocks, skyLight, blockLight), rest) =>
      ({ coord, dims, blocks, skyLight, blockLight, life := lifeOfFlags flags }, rest)

end Chunk

/-- The number of bytes of a chunk, each sum being held to 64 bits. -/
def encodedLength (d : Dims) : Checked Nat := do
  let volume ← d.volume
  let start ← checkSize (9 + volume)
  let light ← checkSize (2 * ((volume + 1) / 2))
  checkSize (start + light)

end VoxelWorld
