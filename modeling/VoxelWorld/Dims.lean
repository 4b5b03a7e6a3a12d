import VoxelWorld.Checked

/-!
# Dims — the size of a chunk

Every chunk of a world has the same three sides. Cells are laid out with `x`
innermost, then `z`, then `y`:

1. `sideRange` and `borderRange` list the coordinates along a side.
2. `contains` decides which local positions are cells.
3. `index?` numbers the cells; `index?_lt` keeps the numbers below `cells`.
4. `volume` and `linearIndex` are the same counts held to 64 bits.
-/

namespace VoxelWorld

/-- The sides of a chunk in blocks; `y` is the height. -/
structure Dims where
  x : Nat
  y : Nat
  z : Nat
deriving DecidableEq, Repr, Inhabited

namespace Dims

/-- The sides of a chunk where nothing else is asked for. -/
def standard : Dims := ⟨16, 128, 16⟩

/-! ## The sides as coordinates -/

@[inline] def width (d : Dims) : Int := sizeAsCoord d.x

@[inline] def height (d : Dims) : Int := sizeAsCoord d.y

@[inline] def depth (d : Dims) : Int := sizeAsCoord d.z

/-! ## Ranges -/

end Dims

/-- The coordinates from zero up to a side. -/
def sideRange (side : Int) : List Int := (List.range side.toNat).map fun i : Nat => (i : Int)

/-- The coordinates from minus one up to and including a side. -/
def borderRange (side : Int) : List Int :=
  (List.range (side + 2).toNat).map fun i : Nat => (i : Int) - 1

theorem mem_sideRange {side n : Int} : n ∈ sideRange side ↔ 0 ≤ n ∧ n < side := by
  simp only [sideRange, List.mem_map, List.mem_range]
  constructor
  · rintro ⟨i, hi, rfl⟩
    exact ⟨Int.natCast_nonneg i, by omega⟩
  · rintro ⟨h, h'⟩
    exact ⟨n.toNat, by omega, Int.toNat_of_nonneg h⟩

theorem mem_borderRange {side n : Int} : n ∈ borderRange side ↔ -1 ≤ n ∧ n ≤ side := by
  simp only [borderRange, List.mem_map, List.mem_range]
  constructor
  · rintro ⟨i, hi, rfl⟩
    omega
  · rintro ⟨h, h'⟩
    exact ⟨(n + 1).toNat, by omega, by omega⟩

namespace Dims

/-! ## Cells -/

/-- The local positions that are cells of a chunk. -/
@[reducible] def Contains (d : Dims) (x y z : Int) : Prop :=
  0 ≤ x ∧ 0 ≤ y ∧ 0 ≤ z ∧ x < d.x ∧ y < d.y ∧ z < d.z

@[inline] def contains (d : Dims) (x y z : Int) : Bool := decide (d.Contains x y z)

/-- The exact number of cells. -/
@[inline] def cells (d : Dims) : Nat := d.x * d.y * d.z

/-- The number of a cell: `x` varies fastest, then `z`, then `y`. -/
@[inline] def index? (d : Dims) (x y z : Int) : Option Nat :=
  if d.Contains x y z then some ((y.toNat * d.z + z.toNat) * d.x + x.toNat) else none

theorem index?_lt {d : Dims} {x y z : Int} {i : Nat} (h : d.index? x y z = some i) :
    i < d.cells := by
  unfold index? at h
  split at h
  · rename_i hc
    obtain ⟨hx, hy, hz, hx', hy', hz'⟩ := hc
    obtain ⟨a, rfl⟩ := Int.eq_ofNat_of_zero_le hx
    obtain ⟨b, rfl⟩ := Int.eq_ofNat_of_zero_le hy
    obtain ⟨c, rfl⟩ := Int.eq_ofNat_of_zero_le hz
    simp only [Int.toNat_natCast, Option.some.injEq] at h
    have ha : a < d.x := by omega
    have hb : b + 1 ≤ d.y := by omega
    have hcz : c + 1 ≤ d.z := by omega
    have h1 : b * d.z + c + 1 ≤ d.y * d.z := by
      have := Nat.mul_le_mul_right d.z hb
      rw [Nat.add_mul, Nat.one_mul] at this
      omega
    have h2 := Nat.mul_le_mul_right d.x h1
    rw [Nat.add_mul, Nat.one_mul] at h2
    have h3 : d.y * d.z * d.x = d.cells := by
      unfold cells
      rw [Nat.mul_comm, Nat.mul_assoc]
    omega
  · cases h

theorem index?_isSome {d : Dims} {x y z : Int} :
    (d.index? x y z).isSome = d.contains x y z := by
  unfold index? contains
  split <;> simp_all

/-! ## Counts of 64 bits -/

/-- The number of cells, each product being held to 64 bits. -/
def volume (d : Dims) : Checked Nat := do
  let area ← checkSize (d.x * d.y)
  checkSize (area * d.z)

/-- The number of a cell held to 64 bits. The number is the largest of the intermediate
results, so it alone decides whether one of them leaves the width. -/
def linearIndex (d : Dims) (x y z : Int) : Checked (Option Nat) :=
  match d.index? x y z with
  | none => .ok none
  | some i => some <$> checkSize i

theorem volume_eq_ok {d : Dims} {n : Nat} (h : d.volume = .ok n) : n = d.cells := by
  unfold volume at h
  cases hc : checkSize (d.x * d.y) with
  | error e =>
    rw [hc] at h
    cases h
  | ok a =>
    rw [hc] at h
    obtain ⟨_, rfl⟩ := checkSize_eq_ok.1 hc
    exact (checkSize_eq_ok.1 h).2

/-- The number of bytes that hold one half byte for each cell. -/
def packedLength (d : Dims) : Checked Nat := do
  let n ← d.volume
  return (n + 1) / 2

end Dims

end VoxelWorld
