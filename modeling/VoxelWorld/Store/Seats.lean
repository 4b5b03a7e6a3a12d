import VoxelWorld.Coord

/-!
# Store.Seats — a listing order for a changing set

Each coordinate takes a seat in a ring, and a listing goes once round the ring. Where a
coordinate sits follows from the coordinate itself and from who sat down before it: the
order is the same in every run, but follows neither the coordinates nor their arrival.

1. A ring has a power of two of seats. Up to eight seats one stays empty, in larger rings
   one in eight.
2. A coordinate starts at the seat that its `mark` names and goes along its *way*: first
   16 seats in a row, then 16 that start 16 further on, then 16 that start 32 further on,
   and so on, until each seat has come once.
3. `take` gives it the first seat on its way that nobody holds.
4. `leave` gives the seat back. In the middle of 16 used seats it is only marked as left:
   it can be taken again, but still counts as used.
5. When the empty seats run out, a ring that is mostly left seats is put in order
   (`settle`), and any other moves to a larger one (`grow`).
-/

namespace VoxelWorld

/-! ## Marks -/

/-- The product of two words, its upper half folded onto its lower half. -/
def foldedProduct (a b : UInt64) : UInt64 :=
  let p := a.toNat * b.toNat
  UInt64.ofNat p ^^^ UInt64.ofNat (p / 18446744073709551616)

/-- A word turned left by a number of bits below 64. -/
def turnLeft (x n : UInt64) : UInt64 := (x <<< n) ||| (x >>> ((64 - n) % 64))

namespace ChunkCoord

/-- The word of a signed 32-bit number. -/
def word (v : Int) : UInt64 := UInt64.ofNat (v % 4294967296).toNat

/-- A scattered word for a coordinate: both numbers are multiplied in one after the other,
and the result is turned by its own lowest bits. -/
def mark (c : ChunkCoord) : UInt64 :=
  let stir (state v : UInt64) := foldedProduct (v ^^^ state) 6364136223846793005
  let state := stir (stir 0x13198a2e03707344 (word c.x)) (word c.z)
  turnLeft (foldedProduct state 0x243f6a8885a308d3) (state &&& 63)

end ChunkCoord

/-! ## The ring -/

/-- What is known of one seat. -/
inductive Seat where
  | vacant
  /-- Given back in the middle of used seats. -/
  | left
  | taken (c : ChunkCoord)
  /-- Held by a coordinate that is looking for its place again. -/
  | waiting (c : ChunkCoord)
deriving DecidableEq, Repr, Inhabited

namespace Seat

/-- Whether a coordinate may sit down here. -/
def isOpen : Seat → Bool
  | taken _ => false
  | _ => true

end Seat

/-- A ring of seats. -/
structure Seats where
  ring : Array Seat := #[]
  /-- The number of vacant seats that may still be used. -/
  room : Nat := 0
  /-- The number of coordinates that sit in the ring. -/
  count : Nat := 0
deriving Inhabited

namespace Seats

/-- The number of seats of a ring that may be used at once. -/
def capacity (size : Nat) : Nat := if size ≤ 8 then size - 1 else size / 8 * 7

/-- The size of the smallest ring for a number of coordinates. -/
def sizeFor (count : Nat) : Nat :=
  if count < 4 then 4 else if count < 8 then 8 else (count * 8 / 7).nextPowerOfTwo

/-- The first seat on the way of a coordinate. -/
def start (size : Nat) (c : ChunkCoord) : Nat := c.mark.toNat % size

/-- The seat at step `k` of a way. -/
def onWay (size start k : Nat) : Nat :=
  let row := k / 16
  (start + row * (row + 1) / 2 * 16 + k % 16) % size

/-- The first seat with a property on a way, from step `k` on. -/
def firstOnWay (ring : Array Seat) (start : Nat) (p : Seat → Bool) (k : Nat) : Nat → Option Nat
  | 0 => none
  | steps + 1 =>
    let i := onWay ring.size start k
    if ring[i]?.any p then some i else firstOnWay ring start p (k + 1) steps

/-- The first seat with a property on the way of a coordinate. -/
def first? (ring : Array Seat) (c : ChunkCoord) (p : Seat → Bool) : Option Nat :=
  firstOnWay ring (start ring.size c) p 0 ring.size

/-- The seat that a coordinate holds. -/
def seat? (s : Seats) (c : ChunkCoord) : Option Nat := first? s.ring c (· == .taken c)

/-- Puts a coordinate on the first open seat of a ring. -/
def sit (ring : Array Seat) (c : ChunkCoord) : Array Seat :=
  match first? ring c Seat.isOpen with
  | some i => ring.set! i (.taken c)
  | none => ring

/-! ## Making room -/

/-- The coordinates that sit in a ring, once round. -/
def sitting (ring : Array Seat) : List ChunkCoord :=
  ring.toList.filterMap fun
    | .taken c => some c
    | _ => none

/-- Moves to a ring for at least `least` coordinates. -/
def grow (s : Seats) (least : Nat) : Seats :=
  let size := sizeFor least
  { s with
    ring := (sitting s.ring).foldl sit (Array.replicate size .vacant)
    room := capacity size - s.count }

/-- Whether two seats lie in the same 16 of a way. -/
def sameRow (size start i j : Nat) : Bool :=
  (i + size - start) % size / 16 == (j + size - start) % size / 16

/-- Finds the places of the coordinates that wait at a seat, one after the other. -/
def settleAt (ring : Array Seat) (i : Nat) : Nat → Array Seat
  | 0 => ring
  | steps + 1 =>
    match ring[i]? with
    | some (.waiting c) =>
      match first? ring c Seat.isOpen with
      | none => ring
      | some j =>
        if sameRow ring.size (start ring.size c) i j then ring.set! i (.taken c)
        else
          match ring[j]? with
          | some (.waiting d) =>
            settleAt ((ring.set! j (.taken c)).set! i (.waiting d)) i steps
          | _ => (ring.set! j (.taken c)).set! i .vacant
    | _ => ring

/-- Empties the seats that were left and lets everybody look for a place again. -/
def settle (s : Seats) : Seats :=
  let waiting := s.ring.map fun
    | .taken c => Seat.waiting c
    | _ => .vacant
  let size := s.ring.size
  { s with
    ring := (List.range size).foldl (fun ring i => settleAt ring i size) waiting
    room := capacity size - s.count }

/-- A ring in which one more coordinate can sit. -/
def withRoom (s : Seats) : Seats :=
  let most := capacity s.ring.size
  if 0 < s.room then s
  else if s.count + 1 ≤ most / 2 then s.settle
  else s.grow (max (s.count + 1) (most + 1))

/-! ## Coming and going -/

/-- Gives a seat to a coordinate that has none. -/
def take (s : Seats) (c : ChunkCoord) : Seats :=
  let s := s.withRoom
  match first? s.ring c Seat.isOpen with
  | none => s
  | some i =>
    let used := if s.ring[i]? == some .vacant then 1 else 0
    { ring := s.ring.set! i (.taken c), room := s.room - used, count := s.count + 1 }

/-- The number of used seats in a row, at most 16, of which the one at step `k` is
`step k`. -/
def usedInRow (ring : Array Seat) (step : Nat → Nat) : Nat :=
  ((List.range 16).takeWhile fun k => ring[step k % ring.size]? != some .vacant).length

/-- Gives the seat of a coordinate back. -/
def leave (s : Seats) (c : ChunkCoord) : Seats :=
  match s.seat? c with
  | none => s
  | some i =>
    let size := s.ring.size
    let before := usedInRow s.ring fun k => i + 16 * size - 1 - k
    let after := usedInRow s.ring fun k => i + k
    if 16 ≤ before + after then
      { s with ring := s.ring.set! i .left, count := s.count - 1 }
    else { ring := s.ring.set! i .vacant, room := s.room + 1, count := s.count - 1 }

end Seats

end VoxelWorld
