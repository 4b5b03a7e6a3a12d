import VoxelWorld.Generation.Standard
import VoxelWorld.Proofs.Generation.Trees

/-!
# Proofs.Generation.Ground — which chunks the passes can fill

Noise decides how far the ground rises in a column. `Terrain.rise` is the whole number that comes of
it; the ground is given here for any such numbers (`Terrain.generatorOver`), and `generator_eq` says
that the pass uses its own.

* `TerrainParams.Admits` says of a rise that no sum leaves its width; sums are formed before the
  height is held inside the chunk.
* `Passable` adds what the shore and the veins ask. Exactly then do the three passes fill the chunk
  (`runAll_isOk_iff`). Plain bounds that are enough need a limit for the rises (`RisesWithin`).
-/

namespace VoxelWorld

variable {d : Dims} {c : ChunkCoord} {rises : Int → Int → Checked Int} {params : TerrainParams}

/-- In a column whose ground rises by `r`, neither the height nor its distance to the stone leaves
its width. -/
structure TerrainParams.Admits (params : TerrainParams) (d : Dims) (r : Int) : Prop where
  height : FitsCoord (params.seaLevel + r)
  stone : FitsCoord (min (max (params.seaLevel + r) 1) (max (d.y - 1) 1) - params.dirtDepth)

/-- The rises are known in all columns of the chunk, and no sum of a pass leaves its width. -/
structure Passable (params : TerrainParams) (rise : Int → Int → Checked Int) (d : Dims)
    (c : ChunkCoord) : Prop where
  shore : FitsCoord (params.seaLevel + 1)
  ground : ∀ z < d.z, ∀ x < d.x, ∃ r, rise (c.x * d.x + x) (c.z * d.z + z) = .ok r ∧
    params.Admits d r
  veins : 0x0AE5 + params.oreVeins ≤ 4294967296

/-- In each column that has coordinates the ground rises or falls by no more than `reach`. -/
def RisesWithin (rise : Int → Int → Checked Int) (reach : Int) : Prop :=
  ∀ x z, FitsCoord x → FitsCoord z → ∃ r, rise x z = .ok r ∧ -reach ≤ r ∧ r ≤ reach

namespace Terrain

variable {t : Terrain} {blocks : BlockArray d}

/-! ## The ground over any rises -/

/-- How far the ground rises in a column: the whole part of the noise there, scaled. -/
def rise (t : Terrain) (wx wz : Int) : Checked Int := do
  let n ← t.noise.value (coordToFloat wx) (coordToFloat wz)
  return floatToCoord (n * t.params.amplitude)

/-- The height of the ground in a column of the world. -/
def heightOver (t : Terrain) (rise : Int → Int → Checked Int) (wx wz maxY : Int) :
    Checked Int := do
  let r ← rise wx wz
  let h ← checkCoord (t.params.seaLevel + r)
  let top ← checkCoord (maxY - 1)
  return min (max h 1) (max top 1)

/-- Fills one column of a chunk. -/
def fillColumnOver (t : Terrain) (rise : Int → Int → Checked Int) (baseX baseZ : Int) (z : Nat)
    (blocks : BlockArray d) (x : Nat) : Checked (BlockArray d) := do
  let wx ← checkCoord (baseX + sizeAsCoord x)
  let wz ← checkCoord (baseZ + sizeAsCoord z)
  let h ← t.heightOver rise wx wz d.height
  let shore ← checkCoord (t.params.seaLevel + 1)
  let top ← subSize d.y 1
  (List.range (min h.toNat top + 1)).foldlM (fun blocks y => do
    let id ← t.layer (h ≤ shore) h (sizeAsCoord y)
    return blocks.set (sizeAsCoord x) (sizeAsCoord y) (sizeAsCoord z) id) blocks

/-- The pass that lays the ground. -/
def generatorOver (t : Terrain) (rise : Int → Int → Checked Int) : Generator :=
  fun coord d blocks => do
    let baseX ← coord.worldX d
    let baseZ ← coord.worldZ d
    (List.range d.z).foldlM (fun blocks z =>
      (List.range d.x).foldlM (t.fillColumnOver rise baseX baseZ z) blocks) blocks

/-- The height of the ground is that over the rises of the noise. -/
theorem heightAt_eq : t.heightAt = t.heightOver t.rise := by
  funext wx wz maxY
  unfold heightAt heightOver rise
  cases t.noise.value (coordToFloat wx) (coordToFloat wz) <;> rfl

theorem generator_eq : t.generator = t.generatorOver t.rise := by
  unfold generator generatorOver fillColumn fillColumnOver
  rw [heightAt_eq]

/-! ## Which columns can be filled -/

/-- The block of a layer is known at the surface, and below it if the stone has a height. -/
theorem layer_isOk_iff {beach : Bool} {h y : Int} :
    (∃ id, t.layer beach h y = .ok id) ↔ y = h ∨ FitsCoord (h - t.params.dirtDepth) := by
  unfold layer
  by_cases hy : y = h
  · rw [if_pos hy]
    exact ⟨fun _ => .inl hy, fun _ => ⟨_, rfl⟩⟩
  · rw [if_neg hy, Checked.bind_isOk_iff]
    constructor
    · rintro ⟨stone, hstone, -⟩
      exact .inr (checkCoord_eq_ok.1 hstone).1
    · intro hfits
      refine ⟨_, checkCoord_of_fits (hfits.resolve_left hy), ?_⟩
      split <;> exact ⟨_, rfl⟩

/-- The height is the sea level and the rise, held to the chunk. Only their sum is checked. -/
theorem heightOver_eq_ok (hd : d.Valid) {wx wz h : Int} :
    t.heightOver rises wx wz d.height = .ok h ↔ ∃ r, rises wx wz = .ok r ∧
      FitsCoord (t.params.seaLevel + r) ∧
      h = min (max (t.params.seaLevel + r) 1) (max (d.y - 1) 1) := by
  have hy := hd.y_pos
  have hy' := hd.y_le
  unfold heightOver
  rw [hd.height, checkCoord_of_fits (n := (d.y : Int) - 1) (by constructor <;> omega)]
  simp only [Checked.bind_eq_ok]
  constructor
  · rintro ⟨r, hr, h', hh', top, htop, hh⟩
    obtain ⟨hfits, rfl⟩ := checkCoord_eq_ok.1 hh'
    cases htop
    exact ⟨r, hr, hfits, (Checked.pure_eq_ok.1 hh).symm⟩
  · rintro ⟨r, hr, hfits, rfl⟩
    exact ⟨r, hr, _, checkCoord_of_fits hfits, _, rfl, rfl⟩

/-- The lowest cell is never the ground, so the stone is looked for in every column. -/
theorem fillColumnOver_isOk_iff (hd : d.Valid) (hc : Charted d c) {x z : Nat} (hx : x < d.x)
    (hz : z < d.z) :
    (∃ after, t.fillColumnOver rises (c.x * d.x) (c.z * d.z) z blocks x = .ok after) ↔
      FitsCoord (t.params.seaLevel + 1) ∧
        ∃ r, rises (c.x * d.x + x) (c.z * d.z + z) = .ok r ∧ t.params.Admits d r := by
  have htop : subSize d.y 1 = .ok (d.y - 1) := subSize_eq_ok.2 ⟨hd.y_pos, rfl⟩
  -- each column has a cell below its surface, so it asks where the stone begins
  have hcells : ∀ h shore : Int, 1 ≤ h → ((∃ after, (List.range (min h.toNat (d.y - 1) + 1)).foldlM
      (fun (blocks : BlockArray d) y => do
        let id ← t.layer (h ≤ shore) h (sizeAsCoord y)
        return blocks.set (sizeAsCoord x) (sizeAsCoord y) (sizeAsCoord z) id) blocks = .ok after) ↔
      FitsCoord (h - t.params.dirtDepth)) := by
    intro h shore hpos
    have hcell : ∀ y (blocks : BlockArray d), (∃ after, (do
        let id ← t.layer (h ≤ shore) h (sizeAsCoord y)
        return blocks.set (sizeAsCoord x) (sizeAsCoord y) (sizeAsCoord z) id) = .ok after) ↔
        sizeAsCoord y = h ∨ FitsCoord (h - t.params.dirtDepth) := by
      intro y blocks
      have hlayer : (∃ id, t.layer (h ≤ shore) h (sizeAsCoord y) = .ok id) ↔ _ := layer_isOk_iff
      rw [Checked.bind_isOk_iff, ← hlayer]
      exact ⟨fun ⟨id, hid, _⟩ => ⟨id, hid⟩, fun ⟨id, hid⟩ => ⟨id, hid, _, rfl⟩⟩
    rw [Checked.foldlM_isOk_iff fun y _ blocks => hcell y blocks]
    refine ⟨fun hall => ?_, fun hfits y _ => .inr hfits⟩
    refine (hall 0 (List.mem_range.2 (Nat.succ_pos _))).resolve_left fun hzero => ?_
    have : sizeAsCoord 0 = 0 := rfl
    omega
  unfold fillColumnOver
  rw [hc.checkX hd hx, hc.checkZ hd hz, htop]
  constructor
  · -- the steps of the column one after the other, as far as they went
    rintro ⟨after, hrun⟩
    rcases Checked.bind_eq_ok.1 hrun with ⟨_, ⟨⟩, hrun⟩
    rcases Checked.bind_eq_ok.1 hrun with ⟨_, ⟨⟩, hrun⟩
    rcases Checked.bind_eq_ok.1 hrun with ⟨h, hh, hrun⟩
    rcases Checked.bind_eq_ok.1 hrun with ⟨shore, hshore, hrun⟩
    rcases Checked.bind_eq_ok.1 hrun with ⟨_, ⟨⟩, hrun⟩
    obtain ⟨r, hr, hfits, rfl⟩ := (heightOver_eq_ok hd).1 hh
    refine ⟨(checkCoord_eq_ok.1 hshore).1, r, hr, hfits, ?_⟩
    exact (hcells _ shore (by omega)).1 ⟨after, hrun⟩
  · rintro ⟨hshore, r, hr, hfits, hstone⟩
    have hh := (heightOver_eq_ok (t := t) hd).2 ⟨r, hr, hfits, rfl⟩
    obtain ⟨after, hrun⟩ := (hcells _ (t.params.seaLevel + 1) (by omega)).2 hstone
    refine ⟨after, Checked.bind_eq_ok.2 ⟨_, rfl, Checked.bind_eq_ok.2 ⟨_, rfl, ?_⟩⟩⟩
    refine Checked.bind_eq_ok.2 ⟨_, hh, Checked.bind_eq_ok.2 ⟨_, checkCoord_of_fits hshore, ?_⟩⟩
    exact Checked.bind_eq_ok.2 ⟨_, rfl, hrun⟩

/-- The ground is laid if and only if every column can be filled, whatever is in the chunk. -/
theorem generatorOver_isOk_iff (hd : d.Valid) (hc : Charted d c) :
    (∃ after, t.generatorOver rises c d blocks = .ok after) ↔
      ∀ z < d.z, ∀ x < d.x, FitsCoord (t.params.seaLevel + 1) ∧
        ∃ r, rises (c.x * d.x + x) (c.z * d.z + z) = .ok r ∧ t.params.Admits d r := by
  have hrow : ∀ z ∈ List.range d.z, ∀ blocks : BlockArray d,
      (∃ after, (List.range d.x).foldlM (t.fillColumnOver rises (c.x * d.x) (c.z * d.z) z) blocks =
        .ok after) ↔ ∀ x ∈ List.range d.x, FitsCoord (t.params.seaLevel + 1) ∧
          ∃ r, rises (c.x * d.x + x) (c.z * d.z + z) = .ok r ∧ t.params.Admits d r :=
    fun z hz blocks => Checked.foldlM_isOk_iff (fun x hx blocks =>
      fillColumnOver_isOk_iff hd hc (List.mem_range.1 hx) (List.mem_range.1 hz)) blocks
  unfold generatorOver
  rw [hc.worldX hd, hc.worldZ hd]
  refine (Checked.foldlM_isOk_iff hrow blocks).trans ?_
  simp only [List.mem_range]

end Terrain

/-! ## The three passes -/

namespace GeneratorSet

/-- The three passes over any rises of the ground. -/
def standardOver (seed : Int) (params : TerrainParams) (reg : Registry)
    (rise : Int → Int → Checked Int) : GeneratorSet :=
  empty
    |>.insert "terrain" ((Terrain.new seed params reg).generatorOver rise)
    |>.insert "resources" (Ore.new seed params.oreVeins reg).generator
    |>.insert "forest" (Forest.new seed params reg).generator

/-- The passes of a world are those over the rises of its own noise. -/
theorem standard_eq (seed : Int) (params : TerrainParams) (reg : Registry) :
    standard seed params reg =
      standardOver seed params reg (Terrain.new seed params reg).rise := by
  unfold standard standardOver
  rw [Terrain.generator_eq]

/-- The passes fill a chunk if and only if it is `Passable`, whatever is in it. -/
theorem runAll_isOk_iff (hd : d.Valid) (hc : Charted d c) {seed : Int} {reg : Registry}
    (blocks : BlockArray d) :
    (∃ after, (standardOver seed params reg rises).runAll c d blocks = .ok after) ↔
      Passable params rises d c := by
  have hrun : (standardOver seed params reg rises).runAll c d blocks = (do
      let laid ← (Terrain.new seed params reg).generatorOver rises c d blocks
      let mined ← (Ore.new seed params.oreVeins reg).generator c d laid
      (Forest.new seed params reg).generator c d mined) := by
    unfold runAll passNames
    simp only [List.foldlM_cons, List.foldlM_nil, bind_pure]
    rfl
  -- the forest never stops, so the other two passes decide
  have hforest : ∀ mined : BlockArray d,
      ∃ after, (Forest.new seed params reg).generator c d mined = .ok after := by
    intro mined
    obtain ⟨after, hafter, -⟩ := (Forest.new seed params reg).generator_spec hd hc mined
    exact ⟨after, hafter⟩
  rw [hrun]
  simp only [Checked.bind_isOk_iff, hforest, and_true, Ore.generator_isOk_iff hd]
  rw [exists_and_right, Terrain.generatorOver_isOk_iff hd hc]
  constructor
  · rintro ⟨hground, hveins⟩
    exact ⟨(hground 0 hd.z_pos 0 hd.x_pos).1, fun z hz x hx => (hground z hz x hx).2, hveins⟩
  · rintro ⟨hshore, hground, hveins⟩
    exact ⟨fun z hz x hx => ⟨hshore, hground z hz x hx⟩, hveins⟩

end GeneratorSet

end VoxelWorld
