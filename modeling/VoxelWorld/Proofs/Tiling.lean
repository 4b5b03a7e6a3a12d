import VoxelWorld.Proofs.Light.Decay

/-!
# Proofs.Tiling — every position is one cell of one chunk

Three computations place a position. `Pos.split` divides by the sides, a chunk multiplies to find
its corner, and a chunk on its own subtracts the corner again. They agree, also below zero and where
the sides do not divide the range of a coordinate.

* `Cell.At` says in exact integers that a cell stands at a position. At each height of the world one
  cell does (`Cell.at_cell`), and no other (`Cell.At.eq_cell`).
* `Chunk.Placed` asks that the corner and the columns of a chunk have coordinates.
  `ChunkVolume.inside_iff` compares the cells of such a chunk with those that `split` finds in it.
* `positions_tiled` puts this together for all sizes that a configuration can have.
-/

namespace VoxelWorld

variable {d : Dims} {p : Pos} {cell : Cell}

/-! ## Cells and positions -/

/-- The cell is one of its chunk, and counting from the corner of the chunk leads to the
position. -/
structure Cell.At (d : Dims) (cell : Cell) (p : Pos) : Prop where
  x_lt : cell.x < d.x
  y_lt : cell.y < d.y
  z_lt : cell.z < d.z
  x_eq : cell.chunk.x * d.x + cell.x = p.x
  y_eq : (cell.y : Int) = p.y
  z_eq : cell.chunk.z * d.z + cell.z = p.z

/-- The cell of a position lies where the position is. -/
theorem Cell.at_cell (hd : d.Valid) (h : 0 ≤ p.y ∧ p.y < d.y) : (p.cell d).At d p := by
  have hx := Pos.cell_x (p := p) hd
  have hy := Pos.cell_y (p := p) (d := d) h.1
  have hz := Pos.cell_z (p := p) hd
  have hchunk : (p.cell d).chunk = p.home d := rfl
  obtain ⟨-, -, -, hx', hy', hz'⟩ := Pos.cell_contains hd h
  constructor
  · omega
  · omega
  · omega
  · rw [hchunk]
    omega
  · exact hy
  · rw [hchunk]
    omega

namespace Cell.At

/-- A position with a cell has a height in the world. -/
theorem height (h : cell.At d p) : 0 ≤ p.y ∧ p.y < d.y := by
  have hlt := h.y_lt
  have heq := h.y_eq
  omega

/-- Only the chunk of the position has columns that far. -/
theorem home_eq (hd : d.Valid) (h : cell.At d p) : p.home d = cell.chunk := by
  have hx := h.x_eq
  have hz := h.z_eq
  have hxlt := h.x_lt
  have hzlt := h.z_lt
  refine (Pos.home_eq_iff hd).2 ⟨⟨?_, ?_⟩, ?_, ?_⟩
  all_goals omega

/-- No other cell stands at the position. -/
theorem eq_cell (hd : d.Valid) (h : cell.At d p) : cell = p.cell d := by
  have hx := Pos.cell_x (p := p) hd
  have hy := Pos.cell_y (p := p) (d := d) h.height.1
  have hz := Pos.cell_z (p := p) hd
  rw [h.home_eq hd] at hx hz
  have hchunk : (p.cell d).chunk = cell.chunk := h.home_eq hd
  obtain ⟨-, -, -, hxeq, hyeq, hzeq⟩ := h
  rcases hcell : p.cell d with ⟨chunk, x, y, z⟩
  rcases cell with ⟨chunk', x', y', z'⟩
  rw [hcell] at hx hy hz hchunk
  simp only at *
  rw [Cell.mk.injEq]
  exact ⟨hchunk.symm, by omega, by omega, by omega⟩

/-- The chunk of a position that has coordinates has them too. -/
theorem split_eq (hd : d.Valid) (h : cell.At d p) (hx : FitsCoord p.x) (hz : FitsCoord p.z) :
    p.split d = .ok (some cell) :=
  (Pos.split_eq_some hd).2
    ⟨h.eq_cell hd, h.height, Pos.fits_ediv hd.x_pos hx, Pos.fits_ediv hd.z_pos hz⟩

end Cell.At

/-- Splitting a position gives the cell at it. -/
theorem Pos.at_of_split (hd : d.Valid) (h : p.split d = .ok (some cell)) : cell.At d p := by
  obtain ⟨rfl, hy, -⟩ := (Pos.split_eq_some hd).1 h
  exact Cell.at_cell hd hy

/-! ## Chunks in their places -/

/-- The corner of the chunk and its columns have coordinates. -/
structure Chunk.Placed (c : Chunk) : Prop where
  corner : FitsCoord (c.coord.x * c.dims.x) ∧ FitsCoord (c.coord.z * c.dims.z)
  columns_x : ∀ x : Int, 0 ≤ x → x < c.dims.x → FitsCoord (c.coord.x * c.dims.x + x)
  columns_z : ∀ z : Int, 0 ≤ z → z < c.dims.z → FitsCoord (c.coord.z * c.dims.z + z)

/-- For a chunk that has cells this means that these have coordinates. -/
theorem Chunk.placed_of_cells {c : Chunk} (hcell : c.dims.Contains 0 0 0)
    (h : ∀ x y z, c.dims.Contains x y z →
      FitsCoord (c.coord.x * c.dims.x + x) ∧ FitsCoord (c.coord.z * c.dims.z + z)) : c.Placed := by
  obtain ⟨-, -, -, hx, hy, hz⟩ := hcell
  constructor
  · have hcorner := h 0 0 0 ⟨le_rfl, le_rfl, le_rfl, hx, hy, hz⟩
    rwa [Int.add_zero, Int.add_zero] at hcorner
  · intro x hx0 hxlt
    exact (h x 0 0 ⟨hx0, le_rfl, le_rfl, hxlt, hy, hz⟩).1
  · intro z hz0 hzlt
    exact (h 0 0 z ⟨le_rfl, le_rfl, hz0, hx, hy, hzlt⟩).2

namespace ChunkVolume

variable {c : Chunk}

/-- A chunk seen from its corner. -/
def cornered (c : Chunk) : ChunkVolume := ⟨c, c.coord.x * c.dims.x, c.coord.z * c.dims.z⟩

/-- A chunk in its place is seen from its corner. -/
theorem new_eq_cornered (hw : c.dims.width = c.dims.x) (hdep : c.dims.depth = c.dims.z)
    (h : c.Placed) : ChunkVolume.new c = .ok (cornered c) := by
  unfold ChunkVolume.new Chunk.worldX Chunk.worldZ ChunkCoord.worldX ChunkCoord.worldZ
  rw [hw, hdep, checkCoord_of_fits h.corner.1, checkCoord_of_fits h.corner.2]
  rfl

/-- The cells of a chunk are the positions that are split into it. -/
theorem inside_iff (hd : c.dims.Valid) (h : c.Placed) : (cornered c).Inside p ↔
    ∃ cell, p.split c.dims = .ok (some cell) ∧ cell.chunk = c.coord := by
  constructor
  · -- a cell of the chunk, counted from the corner, splits back into the chunk
    rintro ⟨hp, -⟩
    obtain ⟨hx0, hy0, hz0, hxlt, hylt, hzlt⟩ : c.dims.Contains (p.x - c.coord.x * c.dims.x) p.y
      (p.z - c.coord.z * c.dims.z) := hp
    have hx := h.columns_x _ hx0 hxlt
    have hz := h.columns_z _ hz0 hzlt
    rw [Int.add_comm, Int.sub_add_cancel] at hx hz
    have hat : Cell.At c.dims ⟨c.coord, (p.x - c.coord.x * c.dims.x).toNat, p.y.toNat,
        (p.z - c.coord.z * c.dims.z).toNat⟩ p := by
      constructor
      all_goals simp only
      all_goals omega
    exact ⟨_, hat.split_eq hd hx hz, rfl⟩
  · -- a position of the chunk lies less than a side from its corner
    rintro ⟨cell, hsplit, hchunk⟩
    obtain ⟨hxlt, hylt, hzlt, hxeq, hyeq, hzeq⟩ := Pos.at_of_split hd hsplit
    rw [hchunk] at hxeq hzeq
    have hp : (cornered c).Holds p := by
      show c.dims.Contains (p.x - c.coord.x * c.dims.x) p.y (p.z - c.coord.z * c.dims.z)
      exact ⟨by omega, by omega, by omega, by omega, by omega, by omega⟩
    exact ⟨hp, localFits_of_near hd (Near.inside hp)⟩

/-- Asking does not stop where the distances from the corner are coordinates. -/
theorem acceptsLight_ne_error (h : (cornered c).LocalFits p) :
    ∃ b, (cornered c).acceptsLight p = .ok b := by
  unfold acceptsLight
  rw [toLocal_of_fits h]
  exact ⟨_, rfl⟩

end ChunkVolume

/-! ## All together -/

/-- For all sizes that a configuration can have: a position with coordinates is split if and only if
it is neither below nor above the world, and then into the one cell that stands there; the position
of a cell is split into this cell; and a chunk on its own takes light where its cells are, without
overflow, and nowhere else. -/
theorem positions_tiled (config : WorldConfig) (hvalid : config.validate = .ok ()) :
    (∀ p : Pos, FitsCoord p.x → FitsCoord p.z →
      (¬ (0 ≤ p.y ∧ p.y < config.chunk.y) → p.split config.chunk = .ok none) ∧
      (0 ≤ p.y ∧ p.y < config.chunk.y → ∃ cell, p.split config.chunk = .ok (some cell) ∧
        cell.At config.chunk p ∧ ∀ other, other.At config.chunk p → other = cell)) ∧
    (∀ (cell : Cell) (p : Pos), cell.At config.chunk p → FitsCoord p.x → FitsCoord p.z →
      p.split config.chunk = .ok (some cell)) ∧
    ∀ c : Chunk, c.dims = config.chunk →
      (∀ x y z, c.dims.Contains x y z → FitsCoord (c.coord.x * c.dims.x + x) ∧
        FitsCoord (c.coord.z * c.dims.z + z)) →
      ∃ vol, ChunkVolume.new c = .ok vol ∧ vol.chunk = c ∧ ∀ p,
        (FitsCoord (p.x - c.coord.x * c.dims.x) ∧ FitsCoord (p.z - c.coord.z * c.dims.z) →
          ∃ b, vol.acceptsLight p = .ok b) ∧
        (vol.acceptsLight p = .ok true ↔
          (FitsCoord (p.x - c.coord.x * c.dims.x) ∧ FitsCoord (p.z - c.coord.z * c.dims.z)) ∧
            ∃ cell, p.split c.dims = .ok (some cell) ∧ cell.chunk = c.coord) := by
  have hd := Dims.Valid.of_validate hvalid
  refine ⟨fun p hx hz => ⟨Pos.split_outside hd, fun hy => ?_⟩,
    fun cell p hat hx hz => hat.split_eq hd hx hz, fun c hdims hcells => ?_⟩
  · have hat := Cell.at_cell hd hy
    exact ⟨p.cell config.chunk, hat.split_eq hd hx hz, hat, fun other hother => hother.eq_cell hd⟩
  · have hd' : c.dims.Valid := hdims ▸ hd
    -- one cell is enough to place the chunk
    have hcell : c.dims.Contains 0 0 0 := by
      have hx := hd'.x_pos
      have hy := hd'.y_pos
      have hz := hd'.z_pos
      exact ⟨by omega, by omega, by omega, by omega, by omega, by omega⟩
    have hplaced := Chunk.placed_of_cells hcell hcells
    refine ⟨.cornered c, ChunkVolume.new_eq_cornered hd'.width hd'.depth hplaced, rfl, fun p =>
      ⟨ChunkVolume.acceptsLight_ne_error, ?_⟩⟩
    rw [ChunkVolume.acceptsLight_eq_true, ← ChunkVolume.inside_iff hd' hplaced]
    -- a cell of the chunk is not far from the corner
    exact ⟨fun hin => ⟨hin.2, hin⟩, And.right⟩

/-- A position below zero in both directions, in chunks of the usual size. -/
theorem positions_tiled_below_zero : WorldConfig.validate {} = .ok () ∧
    Pos.split ⟨-1, 5, -17⟩ .standard = .ok (some ⟨⟨-1, -2⟩, 15, 5, 15⟩) ∧
    ∃ c vol, Chunk.new ⟨-1, -2⟩ .standard = .ok c ∧ ChunkVolume.new c = .ok vol ∧
      vol.acceptsLight ⟨-1, 5, -17⟩ = .ok true := by
  have htiled := positions_tiled {} rfl
  have hat : Cell.At .standard ⟨⟨-1, -2⟩, 15, 5, 15⟩ ⟨-1, 5, -17⟩ := by
    constructor <;> decide
  have hsplit := htiled.2.1 _ _ hat (by decide) (by decide)
  obtain ⟨c, hc⟩ : ∃ c, Chunk.new ⟨-1, -2⟩ .standard = .ok c :=
    (Chunk.new_isOk_iff (by decide)).2 (by decide)
  -- the chunk two rows back, whose cells are counted upwards from its corner
  obtain ⟨hcoord, hdims, -⟩ := Chunk.new_spec hc
  have hcells : ∀ x y z, c.dims.Contains x y z → FitsCoord (c.coord.x * c.dims.x + x) ∧
      FitsCoord (c.coord.z * c.dims.z + z) := by
    rw [hcoord, hdims]
    rintro x y z ⟨hx, hy, hz, hx', hy', hz'⟩
    simp only [Dims.standard] at *
    exact ⟨⟨by omega, by omega⟩, ⟨by omega, by omega⟩⟩
  obtain ⟨vol, hvol, -, haccepts⟩ := htiled.2.2 c hdims hcells
  refine ⟨rfl, hsplit, c, vol, hc, hvol, (haccepts _).2.2 ⟨?_, ?_⟩⟩
  · rw [hcoord, hdims]
    decide
  · rw [hcoord, hdims]
    exact ⟨_, hsplit, rfl⟩

end VoxelWorld
