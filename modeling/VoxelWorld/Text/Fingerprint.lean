import VoxelWorld.Chunk.Codec
import VoxelWorld.Text.Hex

/-!
# Text.Fingerprint — short texts for large contents

A fingerprint is a hash of 64 bits in hexadecimal. The hash takes bytes one by one: each
is mixed into the low end and spread by a product (FNV-1a).

1. `ofChunk` covers the blocks and the light of a chunk; `stateOf` adds its state.
2. `ofMesh` covers the streams of a mesh, numbers being taken as their written bits.
3. `ofChunks` covers a list of chunks with their places and states.
-/

namespace VoxelWorld.Fingerprint

/-! ## The hash -/

def start : UInt64 := 0xcbf29ce484222325

def mix (h : UInt64) (b : UInt8) : UInt64 := (h ^^^ b.toUInt64) * 0x100000001b3

def mixAll (h : UInt64) (bytes : Array UInt8) : UInt64 := bytes.foldl mix h

def mixChars (h : UInt64) (cs : List Char) : UInt64 :=
  cs.foldl (fun h c => mix h (UInt8.ofNat c.toNat)) h

def text (h : UInt64) : String := Hex.fixed 16 h.toNat

def ofBytes (bytes : List UInt8) : String := text (bytes.foldl mix start)

/-! ## Chunks -/

def mixCells (h : UInt64) (c : Chunk) : UInt64 :=
  mixAll (mixAll (mixAll h c.blocks.bytes) c.skyLight.bytes) c.blockLight.bytes

def ofChunk (c : Chunk) : String := text (mixCells start c)

/-- The flags, the phase and the fingerprint of a chunk. -/
def stateOf (c : Chunk) : String := s!"{c.life.flags}/{c.life.phase.name}/{ofChunk c}"

def mixChunk (h : UInt64) (c : Chunk) : UInt64 :=
  let h := (wordBytes c.coord.x ++ wordBytes c.coord.z).foldl mix h
  mixCells (mixChars (mixChars h c.life.flags.toList) c.life.phase.name.toList) c

def ofChunks (cs : List Chunk) : String := text (cs.foldl mixChunk start)

/-! ## Meshes -/

/-- The bits of a number, all NaNs being one. -/
def bitsOf (x : Float32) : Nat := if x.isNaN then 0x7fc00000 else x.toBits.toNat

def mixFloats (h : UInt64) (xs : Array Float32) : UInt64 :=
  xs.foldl (fun h x => mixChars h (Hex.digits 8 (bitsOf x))) h

def ofMesh (m : MeshBuild) : String :=
  let h := mixFloats (mixFloats (mixFloats start m.positions) m.normals) m.texture
  let h := m.indices.foldl (fun h i => (wordBytes i.toNat).foldl mix h) h
  text (mixAll h m.colors)

end VoxelWorld.Fingerprint
