import VoxelWorld.Mesh.Snapshot
import VoxelWorld.Proofs.Mesh.Build

/-!
# Proofs.Mesh.Snapshot — a snapshot shows what it was made of

* `placeOf` gives the position of a copied cell by its number, and `capture_ensures` says that
  each number holds the copy of its position.
* `index?_ensures` says that a position next to the chunk is looked up under its own number.
* So a snapshot agrees with what it was made of, wherever a mesh reads it
  (`agree_of_capture`).
* Where the cells of the chunk and its border have numbers and coordinates (`Fits`), copying
  and looking up do not stop. So the mesh of a snapshot is the mesh of what it was made of, and
  there is one (`faithful_of_fits`).
-/

namespace VoxelWorld

/-! ## Sizes -/

/-- The cells of a chunk and of its border can be numbered, and their columns have coordinates. -/
structure Snapshot.Fits (d : Dims) (c : ChunkCoord) : Prop where
  volume : (d.x + 2) * (d.z + 2) * d.y ≤ 2147483647
  x_lo : FitsCoord (c.x * d.x - 1)
  x_hi : FitsCoord (c.x * d.x + d.x)
  z_lo : FitsCoord (c.z * d.z - 1)
  z_hi : FitsCoord (c.z * d.z + d.z)

namespace Snapshot

/-- All cells of a chunk and of its border can be numbered by a coordinate. -/
def Numbered (d : Dims) : Prop := (d.x + 2) * (d.z + 2) * d.y ≤ 2147483647

variable {V : Type} [VoxelView V] {view : V} {d : Dims} {c : ChunkCoord} {s : Snapshot} {p : Pos}
  {cells : Array Voxel} {v : Voxel} {n : Nat} {baseX baseZ : Int} {faulty : Prop}

/-- A side whose two ends have coordinates is not longer than a coordinate. -/
theorem side_le {a : Int} {n : Nat} (hlo : FitsCoord (a * n - 1)) (hhi : FitsCoord (a * n + n)) :
    n ≤ 2147483647 := by
  rcases Int.lt_trichotomy a 0 with ha | rfl | ha
  · have : a * n ≤ -1 * n := Int.mul_le_mul_of_nonneg_right (by omega) (by omega)
    omega
  · omega
  · have : 1 * (n : Int) ≤ a * n := Int.mul_le_mul_of_nonneg_right (by omega) (by omega)
    omega

namespace Fits

theorem width (h : Fits d c) : d.width = d.x :=
  sizeAsCoord_of_lt (by have := side_le h.x_lo h.x_hi; omega)

theorem depth (h : Fits d c) : d.depth = d.z :=
  sizeAsCoord_of_lt (by have := side_le h.z_lo h.z_hi; omega)

/-- There are at least four columns to number. -/
theorem y_le (h : Fits d c) : d.y ≤ 2147483647 := by
  have hcols : 1 * 1 ≤ (d.x + 2) * (d.z + 2) := Nat.mul_le_mul (by omega) (by omega)
  have hrows := Nat.mul_le_mul_right d.y hcols
  have hvolume := h.volume
  omega

/-- The height is no longer than a coordinate, for there are no more layers than cells. -/
theorem height (h : Fits d c) : d.height = d.y :=
  sizeAsCoord_of_lt (by have := h.y_le; omega)

/-- Sides that fit and are not empty are valid. -/
theorem valid (h : Fits d c) (hx : 0 < d.x) (hy : 0 < d.y) (hz : 0 < d.z) : d.Valid where
  x_pos := hx
  y_pos := hy
  z_pos := hz
  x_le := side_le h.x_lo h.x_hi
  y_le := h.y_le
  z_le := side_le h.z_lo h.z_hi

theorem roomy (h : Fits d c) : Roomy d c := by
  have hw := h.width
  have hdep := h.depth
  rcases h with ⟨-, hxl, hxh, hzl, hzh⟩
  rw [← hw] at hxl hxh
  rw [← hdep] at hzl hzh
  exact ⟨hxl, hxh, hzl, hzh⟩

/-- Where there is room, a chunk fits if its cells can be numbered. -/
theorem of_roomy (hd : d.Valid) (hr : Roomy d c) (hn : Numbered d) : Fits d c := by
  rcases hr with ⟨hxl, hxh, hzl, hzh⟩
  rw [hd.width] at hxl hxh
  rw [hd.depth] at hzl hzh
  exact ⟨hn, hxl, hxh, hzl, hzh⟩

/-- The first column of a chunk that fits has coordinates. -/
theorem corner (h : Fits d c) : FitsCoord (c.x * d.width) ∧ FitsCoord (c.z * d.depth) := by
  rw [h.width, h.depth]
  rcases h with ⟨-, hxl, hxh, hzl, hzh⟩
  exact ⟨⟨by omega, by omega⟩, ⟨by omega, by omega⟩⟩

/-- The border along both sides can be numbered, if there is a layer at all. -/
theorem border_le (h : Fits d c) (hy : 0 < d.y) : d.x + 2 ≤ 2147483647 ∧ d.z + 2 ≤ 2147483647 := by
  have hvolume := h.volume
  have hlayer : (d.x + 2) * (d.z + 2) * 1 ≤ (d.x + 2) * (d.z + 2) * d.y := Nat.mul_le_mul_left _ hy
  have hx : (d.x + 2) * 1 ≤ (d.x + 2) * (d.z + 2) := Nat.mul_le_mul_left _ (by omega)
  have hz : 1 * (d.z + 2) ≤ (d.x + 2) * (d.z + 2) := Nat.mul_le_mul_right _ (by omega)
  omega

end Fits

/-- A copy holds the block and the light of its position. -/
theorem of_voxelAt (h : voxelAt view p = .ok v) : VoxelView.block view p = .ok v.block ∧
    ∀ k : LightKind, VoxelView.light view p k = .ok (v.light k) := by
  unfold voxelAt at h
  rcases Checked.bind_eq_ok.1 h with ⟨b, hblock, h⟩
  rcases Checked.bind_eq_ok.1 h with ⟨sky, hsky, h⟩
  rcases Checked.bind_eq_ok.1 h with ⟨light, hlight, h⟩
  cases Checked.pure_eq_ok.1 h
  refine ⟨hblock, fun k => ?_⟩
  cases k with
  | sky => exact hsky
  | block => exact hlight

/-- A copy can be made of what can be read. -/
theorem voxelAt_eq {b : BlockId} {level : LightKind → Nat} (hblock : VoxelView.block view p = .ok b)
    (hlight : ∀ k, VoxelView.light view p k = .ok (level k)) :
    voxelAt view p = .ok ⟨b, level .sky, level .block⟩ := by
  unfold voxelAt
  rw [hblock, hlight, hlight]
  rfl

/-! ## Numbers of cells -/

/-- The position of the copied cell with a number: `x` runs fastest, then `z`, then `y`, and both
begin one before the chunk. -/
def placeOf (baseX baseZ : Int) (d : Dims) (i : Nat) : Pos where
  x := baseX + (i % (d.x + 2) : Nat) - 1
  y := (i / (d.x + 2) / (d.z + 2) : Nat)
  z := baseZ + (i / (d.x + 2) % (d.z + 2) : Nat) - 1

/-- A quotient and a rest, put together and taken apart again. -/
theorem div_mod_of_lt {q n r : Nat} (h : r < n) :
    (q * n + r) / n = q ∧ (q * n + r) % n = r := by
  constructor
  · rw [Nat.add_comm, Nat.add_mul_div_right _ _ (by omega), Nat.div_eq_of_lt h, Nat.zero_add]
  · rw [Nat.add_comm, Nat.add_mul_mod_self_right, Nat.mod_eq_of_lt h]

/-- The number of a row and a place in it, turned back. -/
theorem placeOf_number {x y z : Nat} (hx : x < d.x + 2) (hz : z < d.z + 2) :
    placeOf baseX baseZ d ((y * (d.z + 2) + z) * (d.x + 2) + x) =
      ⟨baseX + x - 1, y, baseZ + z - 1⟩ := by
  unfold placeOf
  rcases div_mod_of_lt (q := y * (d.z + 2) + z) hx with ⟨hdiv, hmod⟩
  rcases div_mod_of_lt (q := y) hz with ⟨hdiv', hmod'⟩
  rw [hdiv, hmod, hdiv', hmod']

/-! ## Copying -/

/-- The first `n` cells are copied. -/
structure Copied (view : V) (baseX baseZ : Int) (d : Dims) (n : Nat) (cells : Array Voxel) :
    Prop where
  size : cells.size = n
  copy : ∀ i v, cells[i]? = some v → voxelAt view (placeOf baseX baseZ d i) = .ok v

/-- One more cell is copied. -/
theorem Copied.push (h : Copied view baseX baseZ d n cells)
    (hv : voxelAt view (placeOf baseX baseZ d n) = .ok v) :
    Copied view baseX baseZ d (n + 1) (cells.push v) where
  size := by rw [Array.size_push, h.size]
  copy i u hi := by
    rw [Array.getElem?_push, h.size] at hi
    split at hi
    · rename_i hin
      cases hi
      rw [hin]
      exact hv
    · exact h.copy i u hi

/-- What a snapshot holds: where it was taken, and each cell under its number. -/
structure Captured (view : V) (c : ChunkCoord) (d : Dims) (s : Snapshot) : Prop where
  coord : s.coord = c
  dims : s.dims = d
  baseX : s.baseX = c.x * d.x
  baseZ : s.baseZ = c.z * d.z
  cells : Copied view s.baseX s.baseZ d (d.y * (d.z + 2) * (d.x + 2)) s.cells

/-- The number of copied cells stays within its width. -/
theorem cellCount_ensures (hfit : ¬ Fits d c → faulty) :
    Ensures faulty (cellCount d) fun _ => True := by
  refine Ensures.intro (fun _ _ => trivial) fun e he => hfit fun h => ?_
  have hx := side_le h.x_lo h.x_hi
  have hz := side_le h.z_lo h.z_hi
  have harea : (d.x + 2) * (d.z + 2) ≤ 2147483649 * 2147483649 :=
    Nat.mul_le_mul (by omega) (by omega)
  have hvolume := h.volume
  unfold cellCount at he
  rw [checkSize_of_lt (by omega), checkSize_of_lt (by omega)] at he
  simp only [bind, Except.bind] at he
  rw [checkSize_of_lt (by omega)] at he
  simp only at he
  rw [checkSize_of_lt (by omega)] at he
  simp only at he
  rw [if_pos (by unfold arrayLimit; omega)] at he
  cases he

section Copying

variable (hw : d.width = d.x) (hdep : d.depth = d.z) (hfit : ¬ Fits d c → faulty)
  (hread : ∀ p, Mesher.Reads d c p → p.y < d.y → FitsCoord p.x → FitsCoord p.z →
    Ensures faulty (voxelAt view p) fun _ => True)

include hfit hread

/-- One cell of a row. -/
theorem copyCell_ensures {x z y : Nat} (hx : x < d.x + 2) (hz : z < d.z + 2) (hy : y < d.y)
    (h : Copied view (c.x * d.x) (c.z * d.z) d ((y * (d.z + 2) + z) * (d.x + 2) + x) cells) :
    Ensures faulty (do
      let wx ← checkCoord (c.x * d.x + ((x : Int) - 1))
      let wz ← checkCoord (c.z * d.z + ((z : Int) - 1))
      return cells.push (← voxelAt view ⟨wx, y, wz⟩))
      (Copied view (c.x * d.x) (c.z * d.z) d ((y * (d.z + 2) + z) * (d.x + 2) + (x + 1))) := by
  have hfitx : ¬ FitsCoord (c.x * d.x + ((x : Int) - 1)) → faulty := by
    intro hn
    refine hfit fun hf => hn ?_
    rcases hf with ⟨-, hlo, hhi, -, -⟩
    exact ⟨by omega, by omega⟩
  have hfitz : ¬ FitsCoord (c.z * d.z + ((z : Int) - 1)) → faulty := by
    intro hn
    refine hfit fun hf => hn ?_
    rcases hf with ⟨-, -, -, hlo, hhi⟩
    exact ⟨by omega, by omega⟩
  apply (checkCoord_ensures _ hfitx).and_eq_ok.bind
  rintro wx ⟨rfl, hwx⟩
  apply (checkCoord_ensures _ hfitz).and_eq_ok.bind
  rintro wz ⟨rfl, hwz⟩
  -- the cell is one that a mesh may read, so the view can be asked for it
  have hreads : Mesher.Reads d c
      ⟨c.x * d.x + ((x : Int) - 1), y, c.z * d.z + ((z : Int) - 1)⟩ :=
    ⟨⟨by simp only; omega, by simp only; omega, by simp only; omega, by simp only; omega⟩,
      by simp only; omega⟩
  apply (hread _ hreads (by simp only; omega) (checkCoord_eq_ok.1 hwx).1
    (checkCoord_eq_ok.1 hwz).1).and_eq_ok.bind
  rintro v ⟨-, hv⟩
  refine Ensures.pure (h.push ?_)
  rw [placeOf_number hx hz, Int.add_sub_assoc, Int.add_sub_assoc]
  exact hv

include hw

/-- The cells of one row of a layer. -/
theorem copyRow_ensures {y z : Nat} (hy : y < d.y) (hz : z < d.z + 2)
    (h : Copied view (c.x * d.x) (c.z * d.z) d ((y * (d.z + 2) + z) * (d.x + 2)) cells) :
    Ensures faulty ((borderRange d.width).foldlM (fun (cells : Array Voxel) x => do
      let wx ← checkCoord (c.x * d.x + x)
      let wz ← checkCoord (c.z * d.z + ((z : Int) - 1))
      return cells.push (← voxelAt view ⟨wx, y, wz⟩)) cells)
      (Copied view (c.x * d.x) (c.z * d.z) d ((y * (d.z + 2) + (z + 1)) * (d.x + 2))) := by
  have hcols : (d.width + 2).toNat = d.x + 2 := by omega
  have hcol : (y * (d.z + 2) + (z + 1)) * (d.x + 2) =
      (y * (d.z + 2) + z) * (d.x + 2) + (d.x + 2) := by
    rw [← Nat.add_assoc, Nat.add_mul _ 1, Nat.one_mul]
  unfold borderRange
  rw [List.foldlM_map, hcols, hcol]
  refine Ensures.foldlM_range (I := fun x cells =>
    Copied view (c.x * d.x) (c.z * d.z) d ((y * (d.z + 2) + z) * (d.x + 2) + x) cells) ?_ h
  intro x cells hx hcx
  exact copyCell_ensures hfit hread hx hz hy hcx

include hdep

/-- The rows of one layer. -/
theorem copyLayer_ensures {y : Nat} (hy : y < d.y)
    (h : Copied view (c.x * d.x) (c.z * d.z) d (y * (d.z + 2) * (d.x + 2)) cells) :
    Ensures faulty ((borderRange d.depth).foldlM (fun cells z =>
      (borderRange d.width).foldlM (fun (cells : Array Voxel) x => do
        let wx ← checkCoord (c.x * d.x + x)
        let wz ← checkCoord (c.z * d.z + z)
        return cells.push (← voxelAt view ⟨wx, y, wz⟩)) cells) cells)
      (Copied view (c.x * d.x) (c.z * d.z) d ((y + 1) * (d.z + 2) * (d.x + 2))) := by
  have hrows : (d.depth + 2).toNat = d.z + 2 := by omega
  have hrow : (y + 1) * (d.z + 2) * (d.x + 2) = (y * (d.z + 2) + (d.z + 2)) * (d.x + 2) := by
    rw [Nat.add_mul, Nat.one_mul]
  rw [hrow]
  show Ensures faulty
    (((List.range (d.depth + 2).toNat).map fun i : Nat => (i : Int) - 1).foldlM _ _) _
  rw [List.foldlM_map, hrows]
  refine Ensures.foldlM_range (I := fun z cells =>
    Copied view (c.x * d.x) (c.z * d.z) d ((y * (d.z + 2) + z) * (d.x + 2)) cells) ?_ h
  intro z cells hz hcz
  exact copyRow_ensures hw hfit hread hy hz hcz

/-- A snapshot holds every cell under its number. -/
theorem capture_ensures (hh : d.height = d.y) :
    Ensures faulty (capture view c d) (Captured view c d) := by
  unfold capture
  apply (cellCount_ensures hfit).bind
  intro _ _
  apply (checkCoord_ensures _ fun hn => hfit fun hf => hn hf.corner.1).bind
  intro baseX hbx
  apply (checkCoord_ensures _ fun hn => hfit fun hf => hn hf.corner.2).bind
  intro baseZ hbz
  rw [hw] at hbx
  rw [hdep] at hbz
  subst hbx hbz
  have hnone : Copied view (c.x * d.x) (c.z * d.z) d (0 * (d.z + 2) * (d.x + 2)) #[] := by
    constructor
    · rw [Nat.zero_mul, Nat.zero_mul]
      rfl
    · intro i v hi
      cases hi
  have hlayers : d.height.toNat = d.y := by omega
  -- layers, rows and cells are counted by one number
  refine Ensures.bind (P := Copied view (c.x * d.x) (c.z * d.z) d (d.y * (d.z + 2) * (d.x + 2)))
    ?_ fun cells hcells => Ensures.pure ⟨rfl, rfl, rfl, rfl, hcells⟩
  unfold sideRange
  rw [List.foldlM_map, hlayers]
  refine Ensures.foldlM_range (I := fun y cells =>
    Copied view (c.x * d.x) (c.z * d.z) d (y * (d.z + 2) * (d.x + 2)) cells) ?_ hnone
  intro y cells hy hcy
  exact copyLayer_ensures hw hdep hfit hread hy hcy

end Copying

/-- A snapshot that was made holds all cells, whether they had room or not. -/
theorem capture_spec (hw : d.width = d.x) (hdep : d.depth = d.z) (hh : d.height = d.y)
    (h : capture view c d = .ok s) : Captured view c d s :=
  (capture_ensures hw hdep (fun _ => trivial)
    (fun _ _ _ _ _ => Ensures.anyhow trivial) hh).of_eq_ok h

/-! ## Looking up -/

/-- The number of a row and a place in it, as a natural number. -/
theorem toNat_number {x y z i : Int} (hx : 0 ≤ x) (hy : 0 ≤ y) (hz : 0 ≤ z)
    (hi : i = (y * (d.z + 2) + z) * (d.x + 2) + x) :
    i.toNat = (y.toNat * (d.z + 2) + z.toNat) * (d.x + 2) + x.toNat := by
  have hcast : i = ((y.toNat * (d.z + 2) + z.toNat) * (d.x + 2) + x.toNat : Nat) := by
    rw [hi]
    simp only [Int.natCast_add, Int.natCast_mul, Int.toNat_of_nonneg hx, Int.toNat_of_nonneg hy,
      Int.toNat_of_nonneg hz]
    rfl
  rw [hcast, Int.toNat_natCast]

/-- The number of a row and a place in it is below the number of cells. -/
theorem number_lt {x y z : Nat} (hx : x < d.x + 2) (hy : y < d.y) (hz : z < d.z + 2) :
    (y * (d.z + 2) + z) * (d.x + 2) + x < d.y * (d.z + 2) * (d.x + 2) := by
  have hrow : (y + 1) * (d.z + 2) ≤ d.y * (d.z + 2) := Nat.mul_le_mul_right _ hy
  rw [Nat.add_mul, Nat.one_mul] at hrow
  have hcol : (y * (d.z + 2) + z + 1) * (d.x + 2) ≤ d.y * (d.z + 2) * (d.x + 2) :=
    Nat.mul_le_mul_right _ (by omega)
  rw [Nat.add_mul _ 1, Nat.one_mul] at hcol
  omega

/-- All that a number is computed from has the width of a coordinate. -/
theorem Fits.number (h : Fits d c) {x y z width depth : Int} (hwidth : d.x + 2 = width)
    (hdepth : d.z + 2 = depth) (hx : 0 ≤ x ∧ x < width) (hy : 0 ≤ y ∧ y < d.y)
    (hz : 0 ≤ z ∧ z < depth) : FitsCoord (y * depth) ∧ FitsCoord (y * depth + z) ∧
      FitsCoord ((y * depth + z) * width) ∧ FitsCoord ((y * depth + z) * width + x) := by
  subst hwidth hdepth
  obtain ⟨x, rfl⟩ := Int.eq_ofNat_of_zero_le hx.1
  obtain ⟨y, rfl⟩ := Int.eq_ofNat_of_zero_le hy.1
  obtain ⟨z, rfl⟩ := Int.eq_ofNat_of_zero_le hz.1
  -- all sums and products on the way are at most the number of the last cell
  have hlt : (y * (d.z + 2) + z) * (d.x + 2) + x < d.y * (d.z + 2) * (d.x + 2) :=
    number_lt (by omega) (by omega) (by omega)
  have hvolume := h.volume
  rw [Nat.mul_comm, Nat.mul_comm (d.x + 2), ← Nat.mul_assoc] at hvolume
  have hrow : y * (d.z + 2) + z ≤ (y * (d.z + 2) + z) * (d.x + 2) :=
    Nat.le_mul_of_pos_right _ (by omega)
  have hfits : ∀ n : Nat, n ≤ 2147483647 → FitsCoord n := fun n hn => ⟨by omega, by omega⟩
  refine ⟨?_, ?_, ?_, ?_⟩
  · exact_mod_cast hfits (y * (d.z + 2)) (by omega)
  · exact_mod_cast hfits (y * (d.z + 2) + z) (by omega)
  · exact_mod_cast hfits ((y * (d.z + 2) + z) * (d.x + 2)) (by omega)
  · exact_mod_cast hfits ((y * (d.z + 2) + z) * (d.x + 2) + x) (by omega)

section Looking

variable (hd : d.Valid) (hs : Captured view c d s) (hp : Mesher.Reads d c p)

include hd hs hp

/-- Positions that a mesh reads are found under their numbers, up to the top of the world. -/
theorem index?_ensures (hfit : ¬ Fits d c → faulty) : Ensures faulty (s.index? p) fun o =>
    o = none ∧ d.height ≤ p.y ∨ ∃ i < d.y * (d.z + 2) * (d.x + 2),
      o = some i ∧ placeOf s.baseX s.baseZ d i = p := by
  have hxle := hd.x_le
  have hzle := hd.z_le
  rcases hp with ⟨⟨hxl, hxh, hzl, hzh⟩, hy⟩
  have hx₀ : FitsCoord (p.x - c.x * d.x) := ⟨by omega, by omega⟩
  have hz₀ : FitsCoord (p.z - c.z * d.z) := ⟨by omega, by omega⟩
  -- one step further the sides have to be those of a border that fits
  have hborder : ∀ n : Int, (0 ≤ n ∧ n ≤ d.x + 2) ∨ (0 ≤ n ∧ n ≤ d.z + 2) →
      ¬ FitsCoord n → faulty := by
    intro n hn hfits
    refine hfit fun hf => hfits ?_
    have hle := hf.border_le hd.y_pos
    exact ⟨by omega, by omega⟩
  unfold index?
  rw [hs.dims, hs.baseX, hs.baseZ, hd.width, hd.depth, hd.height]
  generalize hwidth : (d.x : Int) + 2 = width
  generalize hdepth : (d.z : Int) + 2 = depth
  apply (checkCoord_ensures _ (absurd hx₀)).bind_eq
  apply (checkCoord_ensures _ (hborder _ (.inl (by omega)))).bind_eq
  apply (checkCoord_ensures _ (absurd hz₀)).bind_eq
  apply (checkCoord_ensures _ (hborder _ (.inr (by omega)))).bind_eq
  apply (checkCoord_ensures _ (hborder _ (.inl (by omega)))).bind_eq
  apply (checkCoord_ensures _ (hborder _ (.inr (by omega)))).bind_eq
  -- of the positions that a mesh reads only those above the world are outside the copy
  refine Ensures.ite (fun hout => Ensures.pure (.inl ⟨rfl, by omega⟩)) fun hin => ?_
  have hnumber : Fits d c → _ :=
    fun hf => hf.number hwidth hdepth (x := p.x - c.x * d.x + 1) (y := p.y)
      (z := p.z - c.z * d.z + 1) ⟨by omega, by omega⟩ ⟨by omega, by omega⟩ ⟨by omega, by omega⟩
  apply (checkCoord_ensures _ fun hn => hfit fun hf => hn (hnumber hf).1).bind_eq
  apply (checkCoord_ensures _ fun hn => hfit fun hf => hn (hnumber hf).2.1).bind_eq
  apply (checkCoord_ensures _ fun hn => hfit fun hf => hn (hnumber hf).2.2.1).bind_eq
  apply (checkCoord_ensures _ fun hn => hfit fun hf => hn (hnumber hf).2.2.2).bind_eq
  have hi := toNat_number (d := d) (x := p.x - c.x * d.x + 1) (y := p.y)
    (z := p.z - c.z * d.z + 1) (by omega) hy (by omega) rfl
  rw [hwidth, hdepth] at hi
  refine Ensures.pure (.inr ⟨_, ?_, rfl, ?_⟩)
  · rw [hi]
    exact number_lt (by omega) (by omega) (by omega)
  · rw [hi, placeOf_number (by omega) (by omega)]
    rcases p with ⟨px, py, pz⟩
    simp only at hx₀ hz₀ hin ⊢
    rw [Int.toNat_of_nonneg (by omega), Int.toNat_of_nonneg hy, Int.toNat_of_nonneg (by omega),
      show c.x * d.x + (px - c.x * d.x + 1) - 1 = px by omega,
      show c.z * d.z + (pz - c.z * d.z + 1) - 1 = pz by omega]

/-- What is looked up is the copy of the position. -/
theorem voxel?_ensures (hfit : ¬ Fits d c → faulty) : Ensures faulty (s.voxel? p) fun o =>
    o = none ∧ d.height ≤ p.y ∨ ∃ v, o = some v ∧ voxelAt view p = .ok v := by
  unfold voxel?
  apply (index?_ensures hd hs hp hfit).bind
  rintro o (⟨rfl, hy⟩ | ⟨i, hi, rfl, hplace⟩)
  · exact Ensures.pure (.inl ⟨rfl, hy⟩)
  · rw [← hs.cells.size] at hi
    have hcell : s.cells[i]? = some s.cells[i] := Array.getElem?_eq_getElem hi
    simp only [hcell]
    refine Ensures.pure (.inr ⟨_, rfl, ?_⟩)
    rw [← hplace]
    exact hs.cells.copy i _ hcell

/-- A snapshot shows a mesh what it was made of. Above the world it shows what every view shows
there. -/
theorem agree_of_capture (habove : d.height ≤ p.y → VoxelView.block view p = .ok air ∧
    ∀ k : LightKind, VoxelView.light view p k = .ok k.sentinel) : Mesher.Agree s view p := by
  have hfound := voxel?_ensures hd hs hp fun _ => trivial
  constructor
  · intro b hb
    rcases Checked.bind_eq_ok.1 hb with ⟨o, ho, hb⟩
    cases Checked.pure_eq_ok.1 hb
    rcases hfound.of_eq_ok ho with ⟨rfl, hy⟩ | ⟨v, rfl, hv⟩
    · exact (habove hy).1
    · exact (of_voxelAt hv).1
  · intro k l hl
    rcases Checked.bind_eq_ok.1 hl with ⟨o, ho, hl⟩
    cases Checked.pure_eq_ok.1 hl
    rcases hfound.of_eq_ok ho with ⟨rfl, hy⟩ | ⟨v, rfl, hv⟩
    · exact (habove hy).2 k
    · exact (of_voxelAt hv).2 k

/-- Looking up what a mesh reads does not stop. -/
theorem reads_of_fits (hfit : Fits d c) : Ensures False (VoxelView.block s p) (fun _ => True) ∧
    ∀ k, Ensures False (VoxelView.light s p k) fun _ => True := by
  have hfound := voxel?_ensures hd hs hp fun hn => hn hfit
  exact ⟨hfound.bind fun _ _ => Ensures.pure trivial,
    fun k => hfound.bind fun _ _ => Ensures.pure trivial⟩

end Looking

/-! ## Building from a copy -/

/-- There is a snapshot of the chunk, and its mesh is the mesh of the chunk. -/
def Faithful (view : V) (c : ChunkCoord) (d : Dims) : Prop :=
  ∃ s, capture view c d = .ok s ∧ ∀ reg, ∃ g,
    Mesher.build reg s s.coord s.dims = .ok g ∧ Mesher.build reg view c d = .ok g

/-- The mesh of a snapshot is the mesh of what it was made of, and both can be built. -/
theorem faithful_of_fits (hfit : Fits d c)
    (hread : ∀ p, Mesher.Reads d c p → p.y < d.y → FitsCoord p.x → FitsCoord p.z →
      ∃ v, voxelAt view p = .ok v)
    (habove : ∀ p, Mesher.Reads d c p → d.height ≤ p.y → VoxelView.block view p = .ok air ∧
      ∀ k : LightKind, VoxelView.light view p k = .ok k.sentinel) : Faithful view c d := by
  have hcopy : Ensures False (capture view c d) (Captured view c d) := by
    refine capture_ensures hfit.width hfit.depth (fun hn => hn hfit) ?_ hfit.height
    intro p hp hy hx hz
    rcases hread p hp hy hx hz with ⟨v, hv⟩
    rw [hv]
    trivial
  rcases hcopy.exists_ok not_false with ⟨s, hcapture, hs⟩
  refine ⟨s, hcapture, fun reg => ?_⟩
  rw [hs.coord, hs.dims]
  by_cases hempty : d.x = 0 ∨ d.y = 0 ∨ d.z = 0
  · -- without cells there is an empty mesh on both sides
    rcases hfit.corner with ⟨hx, hz⟩
    exact ⟨.empty, Mesher.build_of_empty hx hz hempty, Mesher.build_of_empty hx hz hempty⟩
  · -- the snapshot can be built from, and what it shows is what the view shows
    have hd : d.Valid := hfit.valid (by omega) (by omega) (by omega)
    have hbuild : Ensures False (Mesher.build reg s c d) fun _ => True :=
      Mesher.build_ensures hd (fun hn => hn hfit.roomy) fun p hp _ _ => reads_of_fits hd hs hp hfit
    rcases hbuild.exists_ok not_false with ⟨g, hg, -⟩
    refine ⟨g, hg, Mesher.build_refines hd (fun p hp => ?_) g hg⟩
    exact agree_of_capture hd hs hp (habove p hp)

end Snapshot

end VoxelWorld
