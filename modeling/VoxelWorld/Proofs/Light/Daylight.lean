import VoxelWorld.Proofs.Light.Seed
import VoxelWorld.Proofs.Tiling

/-!
# Proofs.Light.Daylight — the sky light of a chunk, cell by cell

Seeding goes from world coordinates into the half bytes of a chunk and back. It needs no room beside
the chunk, since nothing is spread, and it writes one array only.

* `Chunk.withSky` is a chunk with other sky light, and `seedSky_frame` says that seeding gives such
  a chunk wherever corner and cells have coordinates.
* `Chunk.OpenToSky` is said of the blocks alone.
* `seedSky_exact` says which light each cell has afterwards, whatever it had before.
-/

namespace VoxelWorld

/-- The chunk with other sky light. -/
def Chunk.withSky (c : Chunk) (sky : NibbleArray c.dims) : Chunk := { c with skyLight := sky }

/-- No block from the cell up to the top of the chunk covers the sky. -/
def Chunk.OpenToSky (reg : Registry) (c : Chunk) (x y z : Int) : Prop :=
  ∀ y', y ≤ y' → y' < c.dims.y → (reg.get (c.block x y' z)).coversSky = false

namespace ChunkVolume

variable {c : Chunk} {sky : NibbleArray c.dims} {p : Pos}

/-- A chunk seen from its corner, with other sky light. -/
def skied (c : Chunk) (sky : NibbleArray c.dims) : ChunkVolume :=
  { cornered c with chunk := c.withSky sky }

/-- Written sky light is another array, and the chunk is otherwise the same. -/
theorem written_skied (n : Nat) : (skied c sky).written p .sky n =
    skied c (sky.set (p.x - (cornered c).baseX) p.y (p.z - (cornered c).baseZ) n) := rfl

end ChunkVolume

namespace Light

open ChunkVolume (cornered skied written_skied)

variable {reg : Registry} {c : Chunk} {x z : Int}

/-! ## One array -/

/-- The loops have written sky light so far. -/
def OnlySky (c : Chunk) (vol : ChunkVolume) : Prop := ∃ sky, vol = skied c sky

/-- A cell is lit without a step to the side. -/
theorem seedCell_frame {covered : Bool} {sky : NibbleArray c.dims} {y : Nat}
    (hfits : (cornered c).LocalFits ⟨x, y, z⟩) :
    Ensures False (refreshColumnCell reg x z false false ⟨skied c sky, covered⟩ y)
      fun s => OnlySky c s.vol := by
  have hread : ∀ sky, (skied c sky).LocalFits ⟨x, y, z⟩ := fun _ => hfits
  have hlight : ∀ sky, Ensures False ((skied c sky).light ⟨x, y, z⟩ .sky) fun _ => True :=
    fun sky => ((ChunkVolume.readings_ensures (absurd (hread sky))).2.2 .sky).mono
      fun _ _ => trivial
  have hset : ∀ n, Ensures False ((skied c sky).setLight ⟨x, y, z⟩ .sky n) (OnlySky c) := by
    intro n
    rw [ChunkVolume.setLight_of_fits (hread sky), written_skied]
    exact Ensures.ok ⟨_, rfl⟩
  -- the new level is read once more, and nothing comes of it
  have hdone : ∀ {vol : ChunkVolume} {covered : Bool}, OnlySky c vol → Ensures False (do
      let _ ← LightVolume.light vol ⟨x, y, z⟩ .sky
      return (ColumnState.mk vol covered)) fun s => OnlySky c s.vol := by
    rintro vol covered ⟨sky, rfl⟩
    apply (hlight sky).bind
    intro _ _
    exact Ensures.pure ⟨sky, rfl⟩
  unfold refreshColumnCell
  apply (ChunkVolume.readings_ensures (absurd (hread sky))).2.1.bind
  intro id _
  apply (hlight sky).bind
  intro old _
  refine Ensures.ite (fun _ => ?_) fun _ => ?_
  · exact (hset 0).bind fun vol hvol => hdone hvol
  · exact (hset maxLight).bind fun vol hvol => hdone hvol

/-- One column writes sky light and nothing else, if its cells have local positions. -/
theorem seedColumn_frame {sky : NibbleArray c.dims}
    (hfits : ∀ y : Nat, (cornered c).LocalFits ⟨x, y, z⟩) :
    Ensures False (refreshColumn reg (skied c sky) x z false false) (OnlySky c) := by
  unfold refreshColumn
  have hstart : OnlySky c (ColumnState.mk (skied c sky) false).vol := ⟨sky, rfl⟩
  refine (Ensures.foldlM_inv (I := fun s => OnlySky c s.vol) ?_ hstart).bind ?_
  · rintro y ⟨vol, covered⟩ _ ⟨sky', hvol⟩
    cases hvol
    exact seedCell_frame (hfits y)
  · intro s hs
    exact Ensures.pure hs

/-- Where the columns have coordinates, seeding comes to an end and writes sky light alone. -/
theorem seedSky_frame (hw : c.dims.width = c.dims.x) (hdep : c.dims.depth = c.dims.z)
    (hxle : c.dims.x ≤ 2147483647) (hzle : c.dims.z ≤ 2147483647) (h : c.Placed) :
    Ensures False (seedSky reg c) fun c' => ∃ sky, c' = c.withSky sky := by
  unfold seedSky
  have hnew : Ensures False (ChunkVolume.new c) (· = cornered c) := by
    rw [ChunkVolume.new_eq_cornered hw hdep h]
    exact Ensures.ok rfl
  have hstart : OnlySky c (cornered c) := ⟨c.skyLight, rfl⟩
  apply hnew.bind_eq
  refine Ensures.bind (P := OnlySky c) ?_ ?_
  · refine Ensures.foldlM_inv (fun x vol hx hvol => ?_) hstart
    obtain ⟨hx0, hxlt⟩ := mem_sideRange.1 hx
    have hxlt : x < c.dims.x := hw ▸ hxlt
    obtain ⟨row, rfl⟩ := hvol
    refine Ensures.foldlM_inv (fun z vol hz hvol => ?_) (⟨row, rfl⟩ : OnlySky c (skied c row))
    obtain ⟨sky, rfl⟩ := hvol
    obtain ⟨hz0, hzlt⟩ := mem_sideRange.1 hz
    have hzlt : z < c.dims.z := hdep ▸ hzlt
    apply (checkCoord_ensures _ (absurd (h.columns_x x hx0 hxlt))).bind_eq
    apply (checkCoord_ensures _ (absurd (h.columns_z z hz0 hzlt))).bind_eq
    -- seen from the corner a column is as far away as there are columns before it
    refine seedColumn_frame fun y => ?_
    show FitsCoord (c.coord.x * c.dims.x + x - c.coord.x * c.dims.x) ∧
      FitsCoord (c.coord.z * c.dims.z + z - c.coord.z * c.dims.z)
    exact ⟨⟨by omega, by omega⟩, ⟨by omega, by omega⟩⟩
  · rintro vol ⟨sky, rfl⟩
    exact Ensures.pure ⟨sky, rfl⟩

/-! ## Every cell -/

/-- The level that the sky gives to a cell: all of it or nothing. -/
def LitBySky (reg : Registry) (c : Chunk) (sky : NibbleArray c.dims) : Prop :=
  ∀ x y z, c.dims.Contains x y z →
    (c.OpenToSky reg x y z → sky.get? x y z = some maxLight) ∧
      (¬ c.OpenToSky reg x y z → sky.get? x y z = some 0)

/-- In a seeded chunk each cell is lit by the sky over its own column. -/
theorem litBySky_of_seeded {sky : NibbleArray c.dims} (hd : c.dims.Valid)
    (h : Seeded reg c (c.withSky sky)) : LitBySky reg c sky := by
  intro x y z hcell
  -- any field with the blocks of the chunk will do
  let f : LightField := ⟨fun _ => true, fun p => c.block p.x p.y p.z, fun _ _ => 0⟩
  have hlight := h.skyLight f ⟨x, y, z⟩ x z hcell fun _ _ _ => rfl
  have hopen : f.OpenToSky reg c.dims.height ⟨x, y, z⟩ ↔ c.OpenToSky reg x y z := by
    rw [hd.height]
    exact Iff.rfl
  obtain ⟨v, hv⟩ := NibbleArray.get?_isSome (a := sky) hcell
  have hread : (c.withSky sky).light x y z .sky = v := by
    show (sky.get? x y z).getD _ = v
    rw [hv]
    rfl
  rw [hread] at hlight
  rw [hv, hlight]
  constructor
  · intro ho
    rw [LightField.skylight_of_open (hopen.2 ho)]
  · intro hc
    rw [LightField.skylight_of_covered fun ho => hc (hopen.1 ho)]

/-- A chunk with a place in the world is always seeded. -/
theorem exists_seedSky (reg : Registry) (c : Chunk) (hx : c.dims.x ≤ 2147483647)
    (hy : c.dims.y ≤ 2147483647) (hz : c.dims.z ≤ 2147483647) (hplaced : c.Placed) :
    ∃ sky : NibbleArray c.dims, seedSky reg c = .ok (c.withSky sky) ∧ LitBySky reg c sky := by
  have hw : c.dims.width = c.dims.x := sizeAsCoord_of_lt (by omega)
  have hdep : c.dims.depth = c.dims.z := sizeAsCoord_of_lt (by omega)
  have hframe : Ensures False (seedSky reg c) fun c' => ∃ sky, c' = c.withSky sky :=
    seedSky_frame hw hdep hx hz hplaced
  obtain ⟨c', hseed, sky, rfl⟩ := hframe.exists_ok id
  refine ⟨sky, hseed, ?_⟩
  by_cases hd : c.dims.Valid
  · -- whether there is room beside the chunk does not matter once there is a result
    have hseeded : Ensures (¬ Roomy c.dims c.coord) (seedSky reg c) (Seeded reg c) :=
      seedSky_ensures hd id
    exact litBySky_of_seeded hd (hseeded.of_eq_ok hseed)
  · -- a chunk with an empty side has no cells
    rintro x y z ⟨h0x, h0y, h0z, hxlt, hylt, hzlt⟩
    exact absurd ⟨by omega, by omega, by omega, hx, hy, hz⟩ hd

/-- Seeding gives a cell full sky light if no block from it up to the top covers the sky, and none
otherwise. It writes nothing else, and it does not matter what the sky light was before.

The sides are at most the largest coordinate, as `WorldConfig.validate` asks. This leaves out a
chunk with a side of `2 ^ 31`, whose columns still have coordinates: as a coordinate the side itself
is negative, the range over it is empty, and nothing is seeded. -/
theorem seedSky_exact (reg : Registry) (c : Chunk) (hx : c.dims.x ≤ 2147483647)
    (hy : c.dims.y ≤ 2147483647) (hz : c.dims.z ≤ 2147483647) (hplaced : c.Placed) :
    ∃ sky : NibbleArray c.dims, seedSky reg c = .ok { c with skyLight := sky } ∧
      (∀ x y z, c.dims.Contains x y z →
        (c.OpenToSky reg x y z → sky.get? x y z = some maxLight) ∧
          (¬ c.OpenToSky reg x y z → sky.get? x y z = some 0)) ∧
      ∀ old : NibbleArray c.dims, ∃ again : NibbleArray c.dims,
        seedSky reg { c with skyLight := old } = .ok { c with skyLight := again } ∧
          ∀ x y z, again.get? x y z = sky.get? x y z := by
  obtain ⟨sky, hseed, hlit⟩ := exists_seedSky reg c hx hy hz hplaced
  refine ⟨sky, hseed, hlit, fun old => ?_⟩
  have hplaced' : (c.withSky old).Placed := ⟨hplaced.corner, hplaced.columns_x, hplaced.columns_z⟩
  obtain ⟨again, hseed', hlit'⟩ := exists_seedSky reg (c.withSky old) hx hy hz hplaced'
  refine ⟨again, hseed', fun x y z => ?_⟩
  by_cases hcell : c.dims.Contains x y z
  · -- both see the same blocks
    by_cases ho : c.OpenToSky reg x y z
    · rw [(hlit x y z hcell).1 ho]
      exact (hlit' x y z hcell).1 ho
    · rw [(hlit x y z hcell).2 ho]
      exact (hlit' x y z hcell).2 ho
  · rw [NibbleArray.get?_eq_none hcell]
    exact NibbleArray.get?_eq_none (a := again) hcell

/-- A stone below a cell of air, in the last column that has a coordinate: there is no room for a
step beside it. -/
theorem seedSky_exact_at_end : ∃ c c' : Chunk, c.coord = ⟨2147483647, 0⟩ ∧ c.dims = ⟨1, 2, 1⟩ ∧
    c.block 0 0 0 = 1 ∧ c.block 0 1 0 = air ∧ seedSky .empty c = .ok c' ∧
      c'.light 0 1 0 .sky = 15 ∧ c'.light 0 0 0 .sky = 0 := by
  obtain ⟨c₀, hnew⟩ : ∃ c, Chunk.new ⟨2147483647, 0⟩ ⟨1, 2, 1⟩ = .ok c := ⟨_, rfl⟩
  obtain ⟨hcoord, hdims, hblank⟩ := Chunk.new_spec hnew
  let c := c₀.putBlock 0 0 0 1
  have hd : c.dims = ⟨1, 2, 1⟩ := hdims
  have hx : c.dims.x = 1 := by rw [hd]
  have hy : c.dims.y = 2 := by rw [hd]
  have hz : c.dims.z = 1 := by rw [hd]
  have hcell : ∀ y : Int, 0 ≤ y → y < 2 → c.dims.Contains 0 y 0 := by
    intro y hlo hhi
    exact ⟨by omega, by omega, by omega, by omega, by omega, by omega⟩
  have hcx : c.coord.x = 2147483647 := by
    rw [show c.coord = ⟨2147483647, 0⟩ from hcoord]
  have hcz : c.coord.z = 0 := by
    rw [show c.coord = ⟨2147483647, 0⟩ from hcoord]
  -- the last column that has a coordinate
  have hplaced : c.Placed := by
    constructor
    · rw [hcx, hcz, hx, hz]
      decide
    · rw [hcx, hx]
      intro x hx0 hxlt
      exact ⟨by omega, by omega⟩
    · rw [hcz, hz]
      intro z hz0 hzlt
      exact ⟨by omega, by omega⟩
  have hstone : c.block 0 0 0 = 1 := by
    rw [Chunk.block_putBlock, if_pos ⟨hcell 0 (by decide) (by decide), rfl, rfl, rfl⟩]
  have hair : c.block 0 1 0 = air := by
    rw [Chunk.block_putBlock, if_neg fun h => absurd h.2.2.1 (by decide), hblank.block]
  obtain ⟨sky, hseed, hlit, -⟩ :=
    seedSky_exact .empty c (by omega) (by omega) (by omega) hplaced
  -- the air lies under nothing, the stone under itself
  have hopen : c.OpenToSky .empty 0 1 0 := by
    intro y hle hlt
    rw [show y = 1 by omega, hair, Registry.get_empty, if_pos rfl]
    rfl
  have hcovered : ¬ c.OpenToSky .empty 0 0 0 := by
    intro ho
    have hself := ho 0 le_rfl (by omega)
    rw [hstone, Registry.get_empty, if_neg (by decide)] at hself
    cases hself
  refine ⟨c, _, hcoord, hd, hstone, hair, hseed, ?_, ?_⟩
  · show (sky.get? 0 1 0).getD _ = 15
    rw [(hlit 0 1 0 (hcell 1 (by decide) (by decide))).1 hopen]
    rfl
  · show (sky.get? 0 0 0).getD _ = 0
    rw [(hlit 0 0 0 (hcell 0 (by decide) (by decide))).2 hcovered]
    rfl

end Light

end VoxelWorld
