/-!
# Block.Basic — what a block is

1. `BlockId` is the byte stored in a cell; `air` is zero.
2. `BlockType` says how light and meshes treat the blocks of one id.
-/

namespace VoxelWorld

/-- The byte stored in a cell. -/
abbrev BlockId := UInt8

def air : BlockId := 0

/-- The shape of a block. -/
inductive BlockForm
  | cube
  /-- Two crossed upright quads, as for a flower or a torch. -/
  | billboard
deriving DecidableEq, Repr, Inhabited

/-- How the blocks of one id look and how they treat light. -/
structure BlockType where
  id : BlockId
  name : String
  /-- Light passes through. -/
  translucent : Bool
  /-- Nothing is drawn. -/
  invisible : Bool
  form : BlockForm
  /-- The light that the block gives off, from 0 to 15. -/
  luminance : Nat
deriving DecidableEq, Repr, Inhabited

namespace BlockType

/-- The type of an id that no list defines: an unlit cube that stops light. -/
def unknown (id : BlockId) : BlockType :=
  ⟨id, "unknown", false, false, .cube, 0⟩

/-- The predefined type of id zero. -/
def ofAir : BlockType :=
  ⟨air, "air", true, true, .cube, 0⟩

@[inline] def isBillboard (t : BlockType) : Bool := t.form == .billboard

/-- Whether the block ends the part of its column that is open to the sky. -/
@[inline] def coversSky (t : BlockType) : Bool := !t.invisible && !t.isBillboard

end BlockType

end VoxelWorld
