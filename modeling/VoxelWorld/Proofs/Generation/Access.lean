import VoxelWorld.Generation.Forest
import VoxelWorld.Proofs.Coord
import VoxelWorld.Proofs.Ensures
import VoxelWorld.Proofs.Storage

/-!
# Proofs.Generation.Access — how the passes look at cells and change them

What is no cell reads as air, and a write there is dropped. So a pass that leaves its chunk does not
show it. To see where the passes look and what they write over, they are given once more with both
accesses as parameters (`Ore.generatorBy`, `Forest.generatorBy`).

* `Access.lenient` is the access of the passes as they are.
* `Access.strict` stops at a position that is no cell, and at a write over a block that may not be
  replaced so.
* A run with the strict access gives what the lenient one gives (`strict_below`), so it is enough to
  show that it does not stop.
-/

namespace VoxelWorld

variable {d : Dims} {blocks : BlockArray d} {id v : BlockId} {faulty : Prop}

/-- A block is read back where it was written, if that is a cell. -/
theorem BlockArray.get_set {x y z x' y' z' : Int} : (blocks.set x y z v).get x' y' z' =
    if d.Contains x y z ∧ x' = x ∧ y' = y ∧ z' = z then v else blocks.get x' y' z' := by
  unfold BlockArray.get
  rw [get?_set]
  by_cases h : d.Contains x y z ∧ x' = x ∧ y' = y ∧ z' = z
  · rw [if_pos h, if_pos h]
    rfl
  · rw [if_neg h, if_neg h]

/-- How cells are read and written. -/
structure Access (d : Dims) where
  read : BlockArray d → Nat → Nat → Nat → Checked BlockId
  write : BlockArray d → Nat → Nat → Nat → BlockId → Checked (BlockArray d)

namespace Access

/-- What is no cell is air and stays so. -/
def lenient : Access d where
  read blocks x y z := .ok (Forest.blockAt blocks x y z)
  write blocks x y z id := .ok (Forest.putAt blocks x y z id)

/-- Only cells are read, and only blocks are written over that the new one may replace. -/
def strict (may : BlockId → BlockId → Prop) [DecidableRel may] : Access d where
  read blocks x y z := if d.Contains x y z then .ok (blocks.get x y z) else .error .outOfBounds
  write blocks x y z id :=
    if d.Contains x y z ∧ may (blocks.get x y z) id then .ok (blocks.set x y z id)
    else .error .outOfBounds

/-- What the first access gives, the second one gives. -/
structure Below (a b : Access d) : Prop where
  read : ∀ blocks x y z, Refines (a.read blocks x y z) (b.read blocks x y z)
  write : ∀ blocks x y z id, Refines (a.write blocks x y z id) (b.write blocks x y z id)

variable {may : BlockId → BlockId → Prop} [DecidableRel may] {x y z : Nat}

/-- The sizes of a cell are its coordinates. -/
theorem sizeAsCoord_of_cell (hd : d.Valid) (h : d.Contains x y z) :
    sizeAsCoord x = x ∧ sizeAsCoord y = y ∧ sizeAsCoord z = z := by
  have hx := hd.x_le
  have hy := hd.y_le
  have hz := hd.z_le
  exact ⟨sizeAsCoord_of_lt (by omega), sizeAsCoord_of_lt (by omega), sizeAsCoord_of_lt (by omega)⟩

/-- Where the strict access goes through, the lenient one does the same. -/
theorem strict_below (hd : d.Valid) : (strict may : Access d).Below lenient where
  read blocks x y z v hv := by
    by_cases hc : d.Contains x y z
    · obtain ⟨hx, hy, hz⟩ := sizeAsCoord_of_cell hd hc
      rw [← hv]
      show Except.ok (blocks.get (sizeAsCoord x) (sizeAsCoord y) (sizeAsCoord z)) = ite _ _ _
      rw [if_pos hc, hx, hy, hz]
    · cases (if_neg hc).symm.trans hv
  write blocks x y z id b hb := by
    -- numbers of cells are coordinates, so nothing is lost on the way there
    by_cases hc : d.Contains x y z ∧ may (blocks.get x y z) id
    · obtain ⟨hx, hy, hz⟩ := sizeAsCoord_of_cell hd hc.1
      rw [← hb]
      show Except.ok (blocks.set (sizeAsCoord x) (sizeAsCoord y) (sizeAsCoord z) id) = ite _ _ _
      rw [if_pos hc, hx, hy, hz]
    · cases (if_neg hc).symm.trans hb

/-- A cell can be read. -/
theorem read_ensures (h : d.Contains x y z) :
    Ensures faulty ((strict may).read blocks x y z) (· = blocks.get x y z) := by
  have hread : (strict may).read blocks x y z = .ok (blocks.get x y z) := if_pos h
  rw [hread]
  exact Ensures.ok rfl

/-- A cell can be written, if its block may be replaced. -/
theorem write_ensures (h : d.Contains x y z) (hmay : may (blocks.get x y z) id) :
    Ensures faulty ((strict may).write blocks x y z id) (· = blocks.set x y z id) := by
  have hwrite : (strict may).write blocks x y z id = .ok (blocks.set x y z id) := if_pos ⟨h, hmay⟩
  rw [hwrite]
  exact Ensures.ok rfl

end Access

/-! ## Columns -/

/-- All columns of the chunk have coordinates. -/
structure Charted (d : Dims) (c : ChunkCoord) : Prop where
  x : ∀ x < d.x, FitsCoord (c.x * d.x + x)
  z : ∀ z < d.z, FitsCoord (c.z * d.z + z)

/-- Room around the chunk is more than that. -/
theorem Roomy.charted {c : ChunkCoord} (h : Roomy d c) (hd : d.Valid) : Charted d c := by
  have hw := hd.width
  have hdep := hd.depth
  constructor
  · intro x hx
    rw [← hw]
    exact h.fits_x (by omega) (by omega)
  · intro z hz
    rw [← hdep]
    exact h.fits_z (by omega) (by omega)

namespace Charted

variable {c : ChunkCoord}

/-- The first column of a charted chunk has a coordinate along `x`. -/
theorem worldX (h : Charted d c) (hd : d.Valid) : c.worldX d = .ok (c.x * d.x) := by
  unfold ChunkCoord.worldX
  rw [hd.width]
  exact checkCoord_of_fits (Int.add_zero (c.x * d.x) ▸ h.x 0 hd.x_pos)

/-- The corner of a charted chunk has a coordinate along `z`. -/
theorem worldZ (h : Charted d c) (hd : d.Valid) : c.worldZ d = .ok (c.z * d.z) := by
  unfold ChunkCoord.worldZ
  rw [hd.depth]
  exact checkCoord_of_fits (Int.add_zero (c.z * d.z) ▸ h.z 0 hd.z_pos)

/-- Every column of a charted chunk has a coordinate along `x`. -/
theorem checkX (h : Charted d c) (hd : d.Valid) {x : Nat} (hx : x < d.x) :
    checkCoord (c.x * d.x + sizeAsCoord x) = .ok (c.x * d.x + x) := by
  have hle := hd.x_le
  rw [sizeAsCoord_of_lt (by omega)]
  exact checkCoord_of_fits (h.x x hx)

/-- Every column of a charted chunk has a coordinate along `z`. -/
theorem checkZ (h : Charted d c) (hd : d.Valid) {z : Nat} (hz : z < d.z) :
    checkCoord (c.z * d.z + sizeAsCoord z) = .ok (c.z * d.z + z) := by
  have hle := hd.z_le
  rw [sizeAsCoord_of_lt (by omega)]
  exact checkCoord_of_fits (h.z z hz)

end Charted

end VoxelWorld
