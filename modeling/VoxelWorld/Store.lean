import Std.Data.HashMap
import VoxelWorld.Chunk.Basic
import VoxelWorld.Store.Seats

/-!
# Store — the resident chunks

Chunks live in numbered slots and are found by coordinate. A slot counts how often it
has been emptied, so that the id of a chunk that is gone never finds its successor.

1. `insert` puts a chunk into a free slot; one that stood at its coordinate is removed
   and disposed.
2. `get?` and `getAt?` find a chunk by id and by coordinate.
3. `remove?` takes a chunk out; its slot is free again.
4. `entries` lists the chunks by slot, `byDistance` by distance and `bySeat` by the seats
   of their coordinates.
-/

namespace VoxelWorld

/-- A reference to a resident chunk. -/
structure ChunkId where
  index : Nat
  generation : Nat
deriving DecidableEq, Repr, Inhabited, Hashable

/-- A place for a chunk, with the number of chunks that have left it. -/
structure Slot where
  generation : Nat
  chunk : Option Chunk
deriving Inhabited

/-- The resident chunks, at most one for each coordinate. -/
structure ChunkStore where
  slots : Array Slot := #[]
  /-- The empty slots, the one emptied last first. -/
  free : List Nat := []
  byCoord : Std.HashMap ChunkCoord ChunkId := ∅
  /-- Where the coordinates sit; used for nothing but an order. -/
  seats : Seats := {}

/-- The outcome of inserting a chunk. -/
structure Insertion where
  id : ChunkId
  store : ChunkStore
  gpu : Gpu
  /-- The disposed chunk that stood at the coordinate before. -/
  replaced : Option Chunk

namespace ChunkStore

def empty : ChunkStore := {}

instance : Inhabited ChunkStore := ⟨empty⟩

/-! ## Finding -/

@[inline] def idOf? (s : ChunkStore) (c : ChunkCoord) : Option ChunkId := s.byCoord[c]?

def contains (s : ChunkStore) (c : ChunkCoord) : Bool := s.byCoord.contains c

def get? (s : ChunkStore) (id : ChunkId) : Option Chunk :=
  match s.slots[id.index]? with
  | none => none
  | some slot => if slot.generation = id.generation then slot.chunk else none

@[inline] def getAt? (s : ChunkStore) (c : ChunkCoord) : Option Chunk :=
  match s.idOf? c with
  | none => none
  | some id => s.get? id

def size (s : ChunkStore) : Nat := s.byCoord.size

def isEmpty (s : ChunkStore) : Bool := s.byCoord.isEmpty

/-! ## Changing -/

/-- Changes the chunk in a slot, if there is one and its generation is right. -/
@[specialize] def Slot.modify (generation : Nat) (f : Chunk → Chunk) (slot : Slot) : Slot :=
  match slot with
  | ⟨g, some c⟩ => if g = generation then ⟨g, some (f c)⟩ else ⟨g, some c⟩
  | ⟨g, none⟩ => ⟨g, none⟩

/-- Changes one chunk. The change must keep its coordinate. -/
@[specialize] def modify (s : ChunkStore) (id : ChunkId) (f : Chunk → Chunk) : ChunkStore :=
  let ⟨slots, free, byCoord, seats⟩ := s
  ⟨slots.modify id.index (Slot.modify id.generation f), free, byCoord, seats⟩

/-- Changes the chunk at a coordinate. -/
@[specialize] def modifyAt (s : ChunkStore) (c : ChunkCoord) (f : Chunk → Chunk) : ChunkStore :=
  match s.idOf? c with
  | none => s
  | some id => s.modify id f

/-- The next number of a slot; it has 32 bits. -/
def nextGeneration (g : Nat) : Nat := (g + 1) % 4294967296

/-- Takes a chunk out. -/
def remove? (s : ChunkStore) (id : ChunkId) : Option (Chunk × ChunkStore) :=
  match s.get? id with
  | none => none
  | some c =>
    some (c,
      { slots := s.slots.set! id.index ⟨nextGeneration id.generation, none⟩
        free := id.index :: s.free
        byCoord := s.byCoord.erase c.coord
        seats := s.seats.leave c.coord })

/-- Takes the chunk at a coordinate out. -/
def removeAt? (s : ChunkStore) (c : ChunkCoord) : Option (Chunk × ChunkStore) :=
  match s.idOf? c with
  | none => none
  | some id => s.remove? id

/-- Puts a chunk into a free slot, or into a new one. -/
def place (s : ChunkStore) (c : Chunk) : ChunkId × ChunkStore :=
  match s.free with
  | index :: free =>
    let generation := (s.slots.getD index ⟨0, none⟩).generation
    let id : ChunkId := ⟨index, generation⟩
    (id,
      { slots := s.slots.set! index ⟨generation, some c⟩
        free
        byCoord := s.byCoord.insert c.coord id
        seats := s.seats.take c.coord })
  | [] =>
    let id : ChunkId := ⟨s.slots.size, 0⟩
    (id,
      { slots := s.slots.push ⟨0, some c⟩
        free := []
        byCoord := s.byCoord.insert c.coord id
        seats := s.seats.take c.coord })

/-- Adds a chunk under its coordinate. -/
def insert (s : ChunkStore) (c : Chunk) (gpu : Gpu) : Insertion :=
  match s.removeAt? c.coord with
  | none =>
    let (id, store) := s.place c
    { id, store, gpu, replaced := none }
  | some (old, s) =>
    let (life, gpu) := old.life.dispose gpu
    let (id, store) := s.place c
    { id, store, gpu, replaced := some { old with life } }

/-! ## Listing -/

/-- The id and the chunk of a slot. -/
def entry? (slot : Slot) (index : Nat) : Option (ChunkId × Chunk) :=
  slot.chunk.map fun c => (⟨index, slot.generation⟩, c)

/-- All chunks with their ids, by slot. -/
def entries (s : ChunkStore) : List (ChunkId × Chunk) :=
  s.slots.toList.zipIdx.filterMap fun (slot, index) => entry? slot index

def chunks (s : ChunkStore) : List Chunk := s.entries.map (·.2)

/-- The coordinates that have a chunk, in no order that matters. -/
def coords (s : ChunkStore) : List ChunkCoord := s.byCoord.keys

/-- A chunk with the key that orders its distance. -/
def withDistance (origin : Vec3) (c : Chunk) : Checked (Int × Chunk) := do
  return (totalKey (← c.distanceTo origin), c)

/-- Chunks by their distance to a point, the nearest first; of two as near the one listed
first stays first. -/
def nearestFirst (origin : Vec3) (chunks : List Chunk) : Checked (List Chunk) := do
  let keyed ← chunks.mapM (withDistance origin)
  return (keyed.mergeSort fun a b => a.1 ≤ b.1).map (·.2)

/-- All chunks, the nearest to a point first; of two as near the one in the lower slot. -/
def byDistance (s : ChunkStore) (origin : Vec3) : Checked (List Chunk) :=
  nearestFirst origin s.chunks

/-- A chunk with the seat of its coordinate. -/
def withSeat (s : ChunkStore) (c : Chunk) : Nat × Chunk := ((s.seats.seat? c.coord).getD 0, c)

/-- Chunks by the seats of their coordinates. -/
def bySeat (s : ChunkStore) (chunks : List Chunk) : List Chunk :=
  ((chunks.map s.withSeat).mergeSort fun a b => a.1 ≤ b.1).map (·.2)

/-- Whatever the seats are, each chunk is listed once. -/
theorem bySeat_perm (s : ChunkStore) (chunks : List Chunk) :
    (s.bySeat chunks).Perm chunks := by
  have h : (chunks.map s.withSeat).map Prod.snd = chunks := by
    rw [List.map_map]
    exact List.map_id chunks
  have sorted := List.mergeSort_perm (chunks.map s.withSeat) fun a b => a.1 ≤ b.1
  exact (sorted.map Prod.snd).trans (List.Perm.of_eq h)

end ChunkStore

end VoxelWorld
