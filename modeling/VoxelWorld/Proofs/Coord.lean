import VoxelWorld.Chunk.Neighbors
import VoxelWorld.Config
import VoxelWorld.Coord
import VoxelWorld.Proofs.Ensures

/-!
# Proofs.Coord — positions, chunks and cells

* `Dims.Valid` are the sizes that a configuration can have; their sides are coordinates.
* `Pos.home` is the chunk of a position and `Pos.split_eq_some` says that `split` finds it.
* `InChunks` are the positions of a set of chunks.
* A chunk is `Roomy` if its positions and those beside it fit their width, so that no step
  out of the chunk stops (`Roomy.step`, `Roomy.offset`).
-/

namespace VoxelWorld

variable {d : Dims} {c : ChunkCoord} {p : Pos} {R : ChunkCoord → Prop}

/-! ## Sizes -/

/-- Sides that are neither empty nor too long for a coordinate. -/
structure Dims.Valid (d : Dims) : Prop where
  x_pos : 0 < d.x
  y_pos : 0 < d.y
  z_pos : 0 < d.z
  x_le : d.x ≤ 2147483647
  y_le : d.y ≤ 2147483647
  z_le : d.z ≤ 2147483647

namespace Dims.Valid

/-- What validation lets through is valid. -/
theorem of_validate {config : WorldConfig} (h : config.validate = .ok ()) :
    config.chunk.Valid := by
  unfold WorldConfig.validate at h
  -- a side that is refused does not come to the end
  by_cases hzero : config.chunk.x = 0 ∨ config.chunk.y = 0 ∨ config.chunk.z = 0
  · rw [if_pos hzero] at h
    cases h
  · rw [if_neg hzero] at h
    by_cases hlong : config.chunk.x > 2147483647 ∨ config.chunk.y > 2147483647 ∨
        config.chunk.z > 2147483647
    · rw [if_pos hlong] at h
      cases h
    · exact ⟨by omega, by omega, by omega, by omega, by omega, by omega⟩

theorem width (h : d.Valid) : d.width = d.x := sizeAsCoord_of_lt (by have := h.x_le; omega)

theorem height (h : d.Valid) : d.height = d.y := sizeAsCoord_of_lt (by have := h.y_le; omega)

theorem depth (h : d.Valid) : d.depth = d.z := sizeAsCoord_of_lt (by have := h.z_le; omega)

end Dims.Valid

/-! ## The chunk of a position -/

namespace Pos

/-- The chunk whose columns a position belongs to. -/
def home (p : Pos) (d : Dims) : ChunkCoord := ⟨p.x / d.x, p.z / d.z⟩

/-- The cell of a position in its chunk. -/
def cell (p : Pos) (d : Dims) : Cell :=
  ⟨p.home d, (p.x % d.x).toNat, p.y.toNat, (p.z % d.z).toNat⟩

/-- Floor division by a positive side stops only where the result is no coordinate. -/
theorem divCoord_eq {a : Int} {n : Nat} (hn : 0 < n) :
    divCoord a n = checkCoord (a / n) := by
  unfold divCoord
  rw [if_neg (by omega)]

/-- The chunk of a column, by floor division of both coordinates. -/
theorem containing_eq (hd : d.Valid) (x z : Int) : ChunkCoord.containing x z d = (do
    let cx ← checkCoord (x / d.x)
    let cz ← checkCoord (z / d.z)
    return ⟨cx, cz⟩) := by
  unfold ChunkCoord.containing
  rw [hd.width, hd.depth, divCoord_eq hd.x_pos, divCoord_eq hd.z_pos]

/-- Below and above the world there are no cells. -/
theorem split_outside (hd : d.Valid) (h : ¬ (0 ≤ p.y ∧ p.y < d.y)) : p.split d = .ok none := by
  unfold split
  rw [hd.height, if_pos (by omega)]

/-- Within the height of the world the columns decide. -/
theorem split_inside (hd : d.Valid) (h : 0 ≤ p.y ∧ p.y < d.y) : p.split d = (do
    let c ← ChunkCoord.containing p.x p.z d
    return some ⟨c, (p.x % d.x).toNat, p.y.toNat, (p.z % d.z).toNat⟩) := by
  unfold split
  rw [hd.height, if_neg (by omega), hd.width, hd.depth]

/-- The cell of a position, if the position has a height in the world and its chunk a coordinate. -/
theorem split_eq_some (hd : d.Valid) {cell : Cell} :
    p.split d = .ok (some cell) ↔
      cell = p.cell d ∧ (0 ≤ p.y ∧ p.y < d.y) ∧ FitsCoord (p.x / d.x) ∧ FitsCoord (p.z / d.z) := by
  by_cases hy : 0 ≤ p.y ∧ p.y < d.y
  · rw [split_inside hd hy, containing_eq hd]
    constructor
    · intro h
      rcases Checked.bind_eq_ok.1 h with ⟨c, hc, h⟩
      rcases Checked.bind_eq_ok.1 hc with ⟨cx, hx, hc⟩
      rcases Checked.bind_eq_ok.1 hc with ⟨cz, hz, hc⟩
      rcases checkCoord_eq_ok.1 hx with ⟨hfx, rfl⟩
      rcases checkCoord_eq_ok.1 hz with ⟨hfz, rfl⟩
      cases Checked.pure_eq_ok.1 hc
      cases Checked.pure_eq_ok.1 h
      exact ⟨rfl, hy, hfx, hfz⟩
    · rintro ⟨rfl, -, hfx, hfz⟩
      rw [checkCoord_of_fits hfx, checkCoord_of_fits hfz]
      rfl
  · rw [split_outside hd hy]
    exact ⟨nofun, fun h => absurd h.2.1 hy⟩

/-- A quotient by a side is nearer to zero. -/
theorem fits_ediv {a : Int} {n : Nat} (hn : 0 < n) (h : FitsCoord a) : FitsCoord (a / n) := by
  rcases h with ⟨hlo, hhi⟩
  have hpos : (0 : Int) < n := by omega
  constructor
  · rw [Int.le_ediv_iff_mul_le hpos]
    have : (n : Int) * 2147483648 ≥ 2147483648 := by omega
    omega
  · have := Int.ediv_lt_iff_lt_mul (a := a) (b := 2147483648) hpos
    have hlt : a / n < 2147483648 := this.2 (by omega)
    omega

/-- Positions of the width of a coordinate can always be split: division does not lead out of it. -/
theorem split_ne_error (hd : d.Valid) (hx : FitsCoord p.x) (hz : FitsCoord p.z) (e : Fault) :
    p.split d ≠ .error e := by
  intro h
  by_cases hy : 0 ≤ p.y ∧ p.y < d.y
  · have hsome : p.split d = .ok (some (p.cell d)) :=
      (split_eq_some hd).2 ⟨rfl, hy, fits_ediv hd.x_pos hx, fits_ediv hd.z_pos hz⟩
    rw [hsome] at h
    cases h
  · rw [split_outside hd hy] at h
    cases h

/-- The columns of a chunk. -/
theorem home_eq_iff (hd : d.Valid) :
    p.home d = c ↔ (c.x * d.x ≤ p.x ∧ p.x < c.x * d.x + d.x) ∧
      (c.z * d.z ≤ p.z ∧ p.z < c.z * d.z + d.z) := by
  -- division rounds down, also below zero
  have hdiv : ∀ (a q : Int) (n : Nat), 0 < n → (a / n = q ↔ q * n ≤ a ∧ a < q * n + n) := by
    intro a q n hn
    have hpos : (0 : Int) < n := by omega
    have hmod := Int.emod_nonneg a (by omega : (n : Int) ≠ 0)
    have hlt := Int.emod_lt_of_pos a hpos
    have heq := Int.mul_ediv_add_emod a n
    constructor
    · rintro rfl
      rw [Int.mul_comm]
      omega
    · rintro ⟨hle, hgt⟩
      apply Int.le_antisymm
      · have := (Int.ediv_lt_iff_lt_mul (a := a) (b := q + 1) hpos).2 (by
          rw [Int.add_mul, Int.one_mul]
          exact hgt)
        omega
      · exact (Int.le_ediv_iff_mul_le hpos).2 hle
  rw [← hdiv p.x c.x d.x hd.x_pos, ← hdiv p.z c.z d.z hd.z_pos]
  unfold home
  constructor
  · rintro rfl
    exact ⟨rfl, rfl⟩
  · rintro ⟨hx, hz⟩
    rw [hx, hz]

/-- The cell of a position, as coordinates. -/
theorem cell_x (hd : d.Valid) : ((p.cell d).x : Int) = p.x - (p.home d).x * d.x := by
  have hmod := Int.emod_nonneg p.x (by have := hd.x_pos; omega : (d.x : Int) ≠ 0)
  have heq := Int.mul_ediv_add_emod p.x d.x
  show ((p.x % d.x).toNat : Int) = p.x - p.x / d.x * d.x
  rw [Int.toNat_of_nonneg hmod, Int.mul_comm]
  omega

/-- The position lies as far from the edge of its chunk along `z` as its cell does. -/
theorem cell_z (hd : d.Valid) : ((p.cell d).z : Int) = p.z - (p.home d).z * d.z := by
  have hmod := Int.emod_nonneg p.z (by have := hd.z_pos; omega : (d.z : Int) ≠ 0)
  have heq := Int.mul_ediv_add_emod p.z d.z
  show ((p.z % d.z).toNat : Int) = p.z - p.z / d.z * d.z
  rw [Int.toNat_of_nonneg hmod, Int.mul_comm]
  omega

theorem cell_y (h : 0 ≤ p.y) : ((p.cell d).y : Int) = p.y := Int.toNat_of_nonneg h

/-- The cell of a position lies in its chunk. -/
theorem cell_contains (hd : d.Valid) (h : 0 ≤ p.y ∧ p.y < d.y) :
    d.Contains (p.cell d).x (p.cell d).y (p.cell d).z := by
  rcases (home_eq_iff hd).1 (rfl : p.home d = p.home d) with ⟨⟨hx, hx'⟩, hz, hz'⟩
  rw [cell_x hd, cell_z hd, cell_y h.1]
  exact ⟨by omega, h.1, by omega, by omega, h.2, by omega⟩

/-- A cell belongs to one position only. -/
theorem split_inj (hd : d.Valid) {q : Pos} {cell : Cell} (hp : p.split d = .ok (some cell))
    (hq : q.split d = .ok (some cell)) : p = q := by
  rcases (split_eq_some hd).1 hp with ⟨hcell, ⟨hy, _⟩, _⟩
  rcases (split_eq_some hd).1 hq with ⟨hcell', ⟨hy', _⟩, _⟩
  have heq := hcell.symm.trans hcell'
  have hhome : p.home d = q.home d := congrArg Cell.chunk heq
  have hx := congrArg Cell.x heq
  have hyy := congrArg Cell.y heq
  have hz := congrArg Cell.z heq
  have hxp := cell_x (p := p) hd
  have hxq := cell_x (p := q) hd
  have hzp := cell_z (p := p) hd
  have hzq := cell_z (p := q) hd
  have hyp := cell_y (d := d) hy
  have hyq := cell_y (d := d) hy'
  -- equal cells of the same chunk: the corner of that chunk gives the positions back
  rw [hhome] at hxp hzp
  rcases p with ⟨px, py, pz⟩
  rcases q with ⟨qx, qy, qz⟩
  simp only [mk.injEq]
  simp only at hxp hxq hzp hzq hyp hyq
  omega

end Pos

/-! ## Sets of chunks -/

/-- The positions that are cells of some chunks. -/
def InChunks (d : Dims) (R : ChunkCoord → Prop) (p : Pos) : Prop :=
  ∃ cell, p.split d = .ok (some cell) ∧ R cell.chunk

/-- Whether a position lies in one of the chunks, by division: its chunk is one of them, and the
position is a cell at all. -/
theorem inChunks_iff (hd : d.Valid) : InChunks d R p ↔
    R (p.home d) ∧ (0 ≤ p.y ∧ p.y < d.y) ∧ FitsCoord (p.x / d.x) ∧ FitsCoord (p.z / d.z) := by
  constructor
  · rintro ⟨cell, hsplit, hR⟩
    rcases (Pos.split_eq_some hd).1 hsplit with ⟨rfl, hy, hfits⟩
    exact ⟨hR, hy, hfits⟩
  · rintro ⟨hR, hy, hfits⟩
    exact ⟨p.cell d, (Pos.split_eq_some hd).2 ⟨rfl, hy, hfits⟩, hR⟩

/-- The cells of one chunk have the positions that follow its corner. -/
theorem inChunks_of_local (hd : d.Valid) (hfx : FitsCoord (c.x * d.x))
    (hfz : FitsCoord (c.z * d.z)) (hR : R c) {x y z : Int} (hc : d.Contains x y z) :
    InChunks d R ⟨c.x * d.x + x, y, c.z * d.z + z⟩ := by
  rcases hc with ⟨hx, hy, hz, hx', hy', hz'⟩
  have hhome : (⟨c.x * d.x + x, y, c.z * d.z + z⟩ : Pos).home d = c :=
    (Pos.home_eq_iff hd).2 ⟨⟨by simp only; omega, by simp only; omega⟩,
      ⟨by simp only; omega, by simp only; omega⟩⟩
  -- a corner that fits belongs to a coordinate that fits
  have hcx : FitsCoord c.x := by
    have hfits := Pos.fits_ediv hd.x_pos hfx
    rwa [Int.mul_ediv_cancel _ (by have := hd.x_pos; omega)] at hfits
  have hcz : FitsCoord c.z := by
    have hfits := Pos.fits_ediv hd.z_pos hfz
    rwa [Int.mul_ediv_cancel _ (by have := hd.z_pos; omega)] at hfits
  refine (inChunks_iff hd).2 ⟨by rw [hhome]; exact hR, ⟨hy, hy'⟩, ?_, ?_⟩
  · show FitsCoord ((⟨c.x * d.x + x, y, c.z * d.z + z⟩ : Pos).home d).x
    rw [hhome]
    exact hcx
  · show FitsCoord ((⟨c.x * d.x + x, y, c.z * d.z + z⟩ : Pos).home d).z
    rw [hhome]
    exact hcz

/-- A cell of a chunk is found from the corner of the chunk. -/
theorem local_of_inChunks (hd : d.Valid) (h : InChunks d (· = c) p) :
    ∃ x y z, d.Contains x y z ∧ p = ⟨c.x * d.x + x, y, c.z * d.z + z⟩ := by
  rcases (inChunks_iff hd).1 h with ⟨hhome, ⟨hy, hy'⟩, -⟩
  rcases (Pos.home_eq_iff hd).1 hhome with ⟨⟨hx, hx'⟩, hz, hz'⟩
  refine ⟨p.x - c.x * d.x, p.y, p.z - c.z * d.z, ?_, ?_⟩
  · exact ⟨by omega, hy, by omega, by omega, hy', by omega⟩
  · have hxe : c.x * d.x + (p.x - c.x * d.x) = p.x := by omega
    have hze : c.z * d.z + (p.z - c.z * d.z) = p.z := by omega
    rw [hxe, hze]

theorem InChunks.mono {R' : ChunkCoord → Prop} (h : InChunks d R p) (hR : ∀ c, R c → R' c) :
    InChunks d R' p := by
  rcases h with ⟨cell, hs, hc⟩
  exact ⟨cell, hs, hR _ hc⟩

/-- A position in one chunk lies in all regions that have the chunk. -/
theorem InChunks.of_mem (h : InChunks d (· = c) p) (hc : R c) : InChunks d R p := by
  rcases h with ⟨cell, hs, rfl⟩
  exact ⟨cell, hs, hc⟩

/-- Nothing is a cell of two chunks. -/
theorem InChunks.unique {c' : ChunkCoord} (hp : InChunks d (· = c) p)
    (hp' : InChunks d (· = c') p) : c = c' := by
  rcases hp with ⟨cell, hs, rfl⟩
  rcases hp' with ⟨cell', hs', rfl⟩
  rw [hs] at hs'
  cases hs'
  rfl

/-! ## Room -/

/-- The columns of a chunk and those beside it fit the width of a coordinate. -/
structure Roomy (d : Dims) (c : ChunkCoord) : Prop where
  x_lo : FitsCoord (c.x * d.width - 1)
  x_hi : FitsCoord (c.x * d.width + d.width)
  z_lo : FitsCoord (c.z * d.depth - 1)
  z_hi : FitsCoord (c.z * d.depth + d.depth)

/-- The coordinate one grid step on. -/
def ChunkCoord.beside (c : ChunkCoord) (o : Int × Int) : ChunkCoord := ⟨c.x + o.1, c.z + o.2⟩

/-- If a step does not stop then it leads beside. -/
theorem ChunkCoord.offset_eq_ok {c' : ChunkCoord} {dx dz : Int} (h : c.offset dx dz = .ok c') :
    c' = c.beside (dx, dz) := by
  unfold ChunkCoord.offset at h
  rcases Checked.bind_eq_ok.1 h with ⟨x, hx, h⟩
  rcases Checked.bind_eq_ok.1 h with ⟨z, hz, h⟩
  cases Checked.pure_eq_ok.1 h
  rw [(checkCoord_eq_ok.1 hx).2, (checkCoord_eq_ok.1 hz).2]
  rfl

/-- A neighbour is one step away at most, along each axis. -/
theorem neighborOffsets_le {o : Int × Int} (h : o ∈ neighborOffsets) :
    (-1 ≤ o.1 ∧ o.1 ≤ 1) ∧ (-1 ≤ o.2 ∧ o.2 ≤ 1) := by
  have hall : ∀ o ∈ neighborOffsets, (-1 ≤ o.1 ∧ o.1 ≤ 1) ∧ (-1 ≤ o.2 ∧ o.2 ≤ 1) := by decide
  exact hall o h

namespace Roomy

/-- All columns from one beside the chunk to the one at its other side have coordinates. -/
theorem fits_x (h : Roomy d c) {x : Int} (hlo : c.x * d.width - 1 ≤ x)
    (hhi : x ≤ c.x * d.width + d.width) : FitsCoord x := by
  rcases h with ⟨hxl, hxh, -, -⟩
  exact ⟨by omega, by omega⟩

theorem fits_z (h : Roomy d c) {z : Int} (hlo : c.z * d.depth - 1 ≤ z)
    (hhi : z ≤ c.z * d.depth + d.depth) : FitsCoord z := by
  rcases h with ⟨-, -, hzl, hzh⟩
  exact ⟨by omega, by omega⟩

/-- One step out of a roomy chunk stays within the width. -/
theorem fits (hd : d.Valid) (h : Roomy d (p.home d)) {dx dz : Int} (hdx : -1 ≤ dx ∧ dx ≤ 1)
    (hdz : -1 ≤ dz ∧ dz ≤ 1) : FitsCoord (p.x + dx) ∧ FitsCoord (p.z + dz) := by
  rcases h with ⟨hxl, hxh, hzl, hzh⟩
  rw [hd.width] at hxl hxh
  rw [hd.depth] at hzl hzh
  rcases (Pos.home_eq_iff hd).1 (rfl : p.home d = p.home d) with ⟨hx, hz⟩
  exact ⟨⟨by omega, by omega⟩, ⟨by omega, by omega⟩⟩

/-- The chunks around a roomy one have coordinates. -/
theorem offset (hd : d.Valid) (h : Roomy d c) {dx dz : Int} (hdx : -1 ≤ dx ∧ dx ≤ 1)
    (hdz : -1 ≤ dz ∧ dz ≤ 1) : c.offset dx dz = .ok (c.beside (dx, dz)) := by
  -- a side is at least one cell long, so a chunk coordinate is no further out than its cells
  have hbound : ∀ (a e : Int) (n : Nat), 0 < n → -1 ≤ e ∧ e ≤ 1 → FitsCoord (a * n - 1) →
      FitsCoord (a * n + n) → FitsCoord (a + e) := by
    intro a e n hn he hlo hhi
    have hn' : (1 : Int) ≤ n := by omega
    rcases Int.le_total a 0 with ha | ha
    · have : a * n ≤ a * 1 := Int.mul_le_mul_of_nonpos_left ha hn'
      exact ⟨by omega, by omega⟩
    · have : a * 1 ≤ a * n := Int.mul_le_mul_of_nonneg_left hn' ha
      exact ⟨by omega, by omega⟩
  rcases h with ⟨hxl, hxh, hzl, hzh⟩
  rw [hd.width] at hxl hxh
  rw [hd.depth] at hzl hzh
  unfold ChunkCoord.offset
  rw [checkCoord_of_fits (hbound _ _ _ hd.x_pos hdx hxl hxh),
    checkCoord_of_fits (hbound _ _ _ hd.z_pos hdz hzl hzh)]
  rfl

/-- The first column of a chunk that has room has coordinates. -/
theorem corner (hd : d.Valid) (h : Roomy d c) :
    FitsCoord (c.x * d.width) ∧ FitsCoord (c.z * d.depth) := by
  have hw := hd.width
  have hdep := hd.depth
  exact ⟨h.fits_x (by omega) (by omega), h.fits_z (by omega) (by omega)⟩

end Roomy

/-- A step to a neighbour stops only where the chunk has no room. -/
theorem offset_ensures {faulty : Prop} (hd : d.Valid) (h : ¬ Roomy d c → faulty) {o : Int × Int}
    (ho : o ∈ neighborOffsets) : Ensures faulty (c.offset o.1 o.2) (· = c.beside o) := by
  refine Ensures.intro (fun c' hc' => ChunkCoord.offset_eq_ok hc') fun e he => h fun hroomy => ?_
  rcases neighborOffsets_le ho with ⟨hx, hz⟩
  rw [hroomy.offset hd hx hz] at he
  cases he

/-! ## Columns on a border -/

/-- A column that one chunk holds and another one sees lies in a chunk next to it, across an
edge that the column touches. -/
theorem side_of_sees {a q r : Int} {n : Nat} (hn : 0 < n) (hlo : q * n ≤ a) (hhi : a < q * n + n)
    (hlo' : r * n - 1 ≤ a) (hhi' : a ≤ r * n + n) :
    r = q ∨ r = q + 1 ∧ a + 1 = q * n + n ∨ r = q - 1 ∧ a = q * n := by
  -- two chunks further the columns are out of sight
  have hfar : ∀ b e : Int, b + 2 ≤ e → b * n + n + n ≤ e * n := by
    intro b e hbe
    have hle : (b + 2) * n ≤ e * n := Int.mul_le_mul_of_nonneg_right hbe (by omega)
    rw [Int.add_mul] at hle
    omega
  have hnext : ∀ b : Int, (b + 1) * n = b * n + n := by
    intro b
    rw [Int.add_mul, Int.one_mul]
  have hcase : r + 2 ≤ q ∨ r + 1 = q ∨ r = q ∨ r = q + 1 ∨ q + 2 ≤ r := by omega
  rcases hcase with h | rfl | rfl | rfl | h
  · have := hfar r q h
    omega
  · have := hnext r
    exact .inr (.inr ⟨by omega, by omega⟩)
  · exact .inl rfl
  · have := hnext q
    exact .inr (.inl ⟨rfl, by omega⟩)
  · have := hfar q r h
    omega

/-- The position lies in a column of the chunk or beside one. -/
structure Sees (d : Dims) (c : ChunkCoord) (p : Pos) : Prop where
  x_lo : c.x * d.x - 1 ≤ p.x
  x_hi : p.x ≤ c.x * d.x + d.x
  z_lo : c.z * d.z - 1 ≤ p.z
  z_hi : p.z ≤ c.z * d.z + d.z

/-- For a cell of the chunk only its distances from the four borders count. -/
theorem boundaryNeighbors_eq (hd : d.Valid) {x z : Nat} (hx : x < d.x) (hz : z < d.z) :
    boundaryNeighbors x z d =
      .ok (touchedNeighbors (x == 0) (x + 1 == d.x) (z == 0) (z + 1 == d.z)) := by
  have hxle := hd.x_le
  have hzle := hd.z_le
  unfold boundaryNeighbors
  rw [checkSize_of_lt (by omega), checkSize_of_lt (by omega)]
  rfl

/-- The numbers that are listed for the borders a cell lies at: the four sides, then the corners. -/
theorem mem_touchedNeighbors {minX maxX minZ maxZ : Bool} {i : Nat} :
    i ∈ touchedNeighbors minX maxX minZ maxZ ↔
      maxX ∧ i = 0 ∨ minX ∧ i = 1 ∨ maxZ ∧ i = 2 ∨ minZ ∧ i = 3 ∨ (maxX ∧ maxZ) ∧ i = 4 ∨
        (minX ∧ minZ) ∧ i = 5 ∨ (minX ∧ maxZ) ∧ i = 6 ∨ (maxX ∧ minZ) ∧ i = 7 := by
  cases minX <;> cases maxX <;> cases minZ <;> cases maxZ <;> simp [touchedNeighbors]

/-- Every number that is listed belongs to a neighbour. -/
theorem neighborOffsets_getD {i : Nat} {minX maxX minZ maxZ : Bool}
    (h : i ∈ touchedNeighbors minX maxX minZ maxZ) :
    neighborOffsets.getD i (0, 0) ∈ neighborOffsets := by
  have hall : ∀ i < 8, neighborOffsets.getD i (0, 0) ∈ neighborOffsets := by decide
  refine hall i ?_
  rcases mem_touchedNeighbors.1 h with h | h | h | h | h | h | h | h <;> omega

/-- The chunks that see a position are its own and the touched ones. -/
theorem touched_of_sees (hd : d.Valid) (hsees : Sees d c p) :
    c = p.home d ∨ ∃ i ∈ touchedNeighbors ((p.cell d).x == 0) ((p.cell d).x + 1 == d.x)
      ((p.cell d).z == 0) ((p.cell d).z + 1 == d.z),
        c = (p.home d).beside (neighborOffsets.getD i (0, 0)) := by
  rcases (Pos.home_eq_iff hd).1 (rfl : p.home d = p.home d) with ⟨⟨hx, hx'⟩, hz, hz'⟩
  have hcx := Pos.cell_x (p := p) hd
  have hcz := Pos.cell_z (p := p) hd
  have hxcase := side_of_sees hd.x_pos hx hx' hsees.x_lo hsees.x_hi
  have hzcase := side_of_sees hd.z_pos hz hz' hsees.z_lo hsees.z_hi
  have hbeside : ∀ i, c.x = (p.home d).x + (neighborOffsets.getD i (0, 0)).1 →
      c.z = (p.home d).z + (neighborOffsets.getD i (0, 0)).2 →
      c = (p.home d).beside (neighborOffsets.getD i (0, 0)) := by
    intro i h h'
    unfold ChunkCoord.beside
    rw [← h, ← h']
  -- one case for each place of the chunk around the column's own
  rcases hxcase with hxe | ⟨hxe, hxt⟩ | ⟨hxe, hxt⟩ <;>
    rcases hzcase with hze | ⟨hze, hzt⟩ | ⟨hze, hzt⟩
  · left
    rcases c with ⟨cx, cz⟩
    show ChunkCoord.mk cx cz = ⟨(p.home d).x, (p.home d).z⟩
    rw [← hxe, ← hze]
  · exact .inr ⟨2, mem_touchedNeighbors.2 (by simp; omega),
      hbeside 2 (hxe.trans (Int.add_zero _).symm) hze⟩
  · exact .inr ⟨3, mem_touchedNeighbors.2 (by simp; omega),
      hbeside 3 (hxe.trans (Int.add_zero _).symm) hze⟩
  · exact .inr ⟨0, mem_touchedNeighbors.2 (by simp; omega),
      hbeside 0 hxe (hze.trans (Int.add_zero _).symm)⟩
  · exact .inr ⟨4, mem_touchedNeighbors.2 (by simp; omega), hbeside 4 hxe hze⟩
  · exact .inr ⟨7, mem_touchedNeighbors.2 (by simp; omega), hbeside 7 hxe hze⟩
  · exact .inr ⟨1, mem_touchedNeighbors.2 (by simp; omega),
      hbeside 1 hxe (hze.trans (Int.add_zero _).symm)⟩
  · exact .inr ⟨6, mem_touchedNeighbors.2 (by simp; omega), hbeside 6 hxe hze⟩
  · exact .inr ⟨5, mem_touchedNeighbors.2 (by simp; omega), hbeside 5 hxe hze⟩

/-- A position that a chunk sees belongs to it or to a chunk around it. -/
theorem home_of_sees (hd : d.Valid) (hsees : Sees d c p) :
    p.home d = c ∨ ∃ o ∈ neighborOffsets, p.home d = c.beside o := by
  rcases touched_of_sees hd hsees with heq | ⟨i, hi, heq⟩
  · exact .inl heq.symm
  · have hback : ∀ o ∈ neighborOffsets, (-o.1, -o.2) ∈ neighborOffsets := by decide
    refine .inr ⟨_, hback _ (neighborOffsets_getD hi), ?_⟩
    rw [heq]
    unfold ChunkCoord.beside
    simp only [Int.add_neg_cancel_right]

end VoxelWorld
