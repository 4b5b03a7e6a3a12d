import VoxelWorld.Proofs.Generation.Ground
import VoxelWorld.Proofs.World.Updates

/-!
# Proofs.World.Bounds — which configurations can be generated

`WorldConfig.validate` looks at the sides of a chunk one by one. Neither their product nor the shape
of the ground is looked at, so a configuration that was let through may still stop the first chunk
(`validated_worlds_stop`).

* `generate_isOk_iff` says what it takes to generate the first chunk of a world without chunks.
* `newOver_isOk_iff` adds what arrays and passes ask of a chunk (`Chunk.new_isOk_iff`, `Passable`).
  The noise is left open: a world is looked at over any rises of its ground (`newOver`).
* `passable_of_reach` gives plain bounds that are enough.
-/

namespace VoxelWorld

variable {d : Dims} {c : ChunkCoord}

namespace World

variable {w : World}

/-! ## The first chunk -/

/-- Nothing is saved where there is no file, whether or not its path can be looked at. -/
theorem saved?_of_no_file {f : ChunkFiles} (hfiles : w.files = some f)
    (hnone : w.disk.get? (f.path c) = none) : w.saved? c = .ok none := by
  unfold saved? loadSaved ChunkFiles.load Disk.read
  simp only [hfiles, hnone]
  cases w.disk.reach (f.path c) with
  | error e => rfl
  | ok _ => rfl

/-- On an empty disk nothing is saved. -/
theorem saved?_of_empty (hdisk : w.disk = .empty) : w.saved? c = .ok none := by
  cases hfiles : w.files with
  | none => exact saved?_of_no_files hfiles
  | some f =>
    refine saved?_of_no_file hfiles ?_
    rw [hdisk]
    exact Std.HashMap.getElem?_empty

/-- What an empty world brings is a new chunk. -/
theorem Brings.new_of_empty {chunk : Chunk} (hdisk : w.disk = .empty) (h : w.Brings c chunk) :
    Chunk.new c w.dims = .ok chunk := by
  rcases h with hsaved | ⟨-, hnew⟩
  · cases (saved?_of_empty hdisk).symm.trans hsaved
  · exact hnew

/-- A world without chunks. -/
theorem chunkAt?_of_empty (hstore : w.store = .empty) (c : ChunkCoord) : w.chunkAt? c = none := by
  unfold World.chunkAt?
  rw [hstore]
  exact ChunkStore.getAt?_empty

theorem intact_of_empty (hstore : w.store = .empty) : w.store.Intact := by
  rw [hstore]
  exact ChunkStore.intact_empty

/-- The first chunk that was generated was made, and the passes filled it. -/
theorem ran_of_generate {r : Bool × World} (hstore : w.store = .empty) (hdisk : w.disk = .empty)
    (hd : w.dims.Valid) (hr : w.generate c = .ok r) :
    (∃ chunk, Chunk.new c w.dims = .ok chunk) ∧
      ∃ blocks after, w.generators.runAll c w.dims blocks = .ok after := by
  obtain ⟨⟨id, w₁⟩, hload, hr⟩ := Checked.bind_eq_ok.1 hr
  have hbrought : Ensures True (w.loadOrCreate c) _ :=
    loadOrCreate_brought (intact_of_empty hstore) (chunkAt?_of_empty hstore c) fun _ _ _ => trivial
  obtain ⟨⟨chunk, hchunk⟩, hid⟩ := hbrought.of_eq_ok hload
  have hnew := hchunk.brings.new_of_empty hdisk
  obtain ⟨hcoord, hdims, hblank⟩ := Chunk.new_spec hnew
  refine ⟨⟨chunk, hnew⟩, ?_⟩
  -- the chunk that came in is fresh, so it is filled
  obtain ⟨chunk', hget, hat⟩ := chunk_of_id hchunk.intact hid
  cases hchunk.setAt.self.symm.trans hat
  have hfresh := hblank.isFresh
  simp only [hget, hfresh, Bool.not_true, Bool.false_eq_true, if_false] at hr
  obtain ⟨filled, hfilled, -⟩ := Checked.bind_eq_ok.1 hr
  have hfill : Ensures True (w₁.populate chunk) (Filling w₁ chunk) := by
    refine populate_filling ?_ (fun _ => trivial) fun _ _ _ => trivial
    rw [hdims]
    exact hd
  obtain ⟨after, hrun, -⟩ := (hfill.of_eq_ok hfilled).block
  have hgen : w₁.generators = w.generators := hchunk.generators
  rw [hcoord, hgen] at hrun
  rw [← hdims]
  exact ⟨_, after, hrun⟩

/-- The first chunk is generated if it can be made and the passes fill it. -/
theorem generate_isOk_iff (hstore : w.store = .empty) (hdisk : w.disk = .empty)
    (hd : w.dims.Valid) (hroom : Roomy w.dims c) (hfits : c.Fits) {P : Prop}
    (hruns : ∀ blocks, (∃ after, w.generators.runAll c w.dims blocks = .ok after) ↔ P) :
    (∃ r, w.generate c = .ok r) ↔ (∃ chunk, Chunk.new c w.dims = .ok chunk) ∧ P := by
  constructor
  · rintro ⟨r, hr⟩
    obtain ⟨hmade, blocks, after, hrun⟩ := ran_of_generate hstore hdisk hd hr
    exact ⟨hmade, (hruns blocks).1 ⟨after, hrun⟩⟩
  · rintro ⟨⟨chunk, hnew⟩, hP⟩
    have hmade : ∀ c e, Chunk.new c w.dims = .error e → False := by
      intro c' e he
      have hthere : ∃ chunk', Chunk.new c' w.dims = .ok chunk' := Chunk.new_isOk hnew
      exact Checked.ne_error hthere e he
    have hrun : ∀ blocks e, w.generators.runAll c w.dims blocks = .error e → False :=
      fun blocks e he => Checked.ne_error ((hruns blocks).2 hP) e he
    -- in an empty world the chunk is a new one
    have hoffers : ∀ chunk, w.Offers c chunk → chunk.coord = c ∧ chunk.dims = w.dims := by
      rintro chunk (hc | ⟨-, -, hbrings⟩)
      · cases (chunkAt?_of_empty hstore c).symm.trans hc
      · exact ⟨hbrings.spec.1, hbrings.spec.2.1⟩
    have hdone : Ensures False (w.generate c) _ :=
      generate_spec (intact_of_empty hstore) hd hfits hoffers hmade (fun hno => hno hroom) hrun
    obtain ⟨r, hr, -⟩ := hdone.exists_ok not_false
    exact ⟨r, hr⟩

/-- A chunk that cannot be made stops the first generation. -/
theorem generate_of_new_error {e : Fault} (hstore : w.store = .empty) (hfiles : w.files = none)
    (hnew : Chunk.new c w.dims = .error e) : w.generate c = .error e := by
  have hnone : w.store.idOf? c = none := by
    rw [hstore]
    exact Std.HashMap.getElem?_empty
  have hload : w.loadSaved c = .ok (none, w) := by
    unfold loadSaved
    rw [hfiles]
    rfl
  -- there is nothing to load, so a new chunk is made
  have hbring : w.loadOrCreate c = .error e := by
    unfold loadOrCreate
    rw [hnone, hload]
    show (Chunk.new c w.dims >>= _) = _
    rw [hnew]
    rfl
  unfold generate
  rw [hbring]
  rfl

/-! ## The first chunk of a configuration -/

/-- The new world of a configuration over any rises of its ground. -/
def newOver (config : WorldConfig) (reg : Registry) (rise : Int → Int → Checked Int) : World :=
  { World.new config reg with
    generators := .standardOver config.seed config.terrain reg rise }

/-- A new world is one over the rises of its own noise. -/
theorem new_eq_newOver (config : WorldConfig) (reg : Registry) : World.new config reg =
    newOver config reg (Terrain.new config.seed config.terrain reg).rise := by
  unfold newOver World.new
  rw [GeneratorSet.standard_eq]

/-- There is always room around the origin. -/
theorem roomy_origin (hd : d.Valid) : Roomy d ⟨0, 0⟩ := by
  have hx := hd.x_le
  have hz := hd.z_le
  constructor
  all_goals
    simp only [hd.width, hd.depth]
    constructor <;> omega

/-- The first chunk is generated exactly if it can be stored and the passes can fill it. -/
theorem newOver_isOk_iff {config : WorldConfig} (h : config.validate = .ok ()) (reg : Registry)
    (rise : Int → Int → Checked Int) :
    (∃ r, (newOver config reg rise).generate ⟨0, 0⟩ = .ok r) ↔
      config.chunk.cells ≤ arrayLimit ∧ Passable config.terrain rise config.chunk ⟨0, 0⟩ := by
  have hd : (newOver config reg rise).dims.Valid := Dims.Valid.of_validate h
  have hfits : ChunkCoord.Fits ⟨0, 0⟩ := ⟨by decide, by decide⟩
  have hruns : ∀ blocks, (∃ after, (newOver config reg rise).generators.runAll ⟨0, 0⟩
      (newOver config reg rise).dims blocks = .ok after) ↔
        Passable config.terrain rise (newOver config reg rise).dims ⟨0, 0⟩ :=
    GeneratorSet.runAll_isOk_iff hd ((roomy_origin hd).charted hd)
  exact (generate_isOk_iff rfl rfl hd (roomy_origin hd) hfits hruns).trans
    (and_congr_left' (Chunk.new_isOk_iff hd.z_pos))

/-- Rises of limited reach, and parameters that leave room for them. -/
theorem passable_of_reach {params : TerrainParams} {rise : Int → Int → Checked Int} {reach : Int}
    (hd : d.Valid) (hc : Charted d c) (hrise : RisesWithin rise reach)
    (hlow : -2147483648 ≤ params.seaLevel - reach) (hhigh : params.seaLevel + reach ≤ 2147483647)
    (hshore : FitsCoord (params.seaLevel + 1))
    (hdirt : 0 ≤ params.dirtDepth ∧ params.dirtDepth ≤ 2147483647)
    (hveins : 0x0AE5 + params.oreVeins ≤ 4294967296) : Passable params rise d c := by
  have hy := hd.y_le
  refine ⟨hshore, fun z hz x hx => ?_, hveins⟩
  obtain ⟨r, hr, hr₀, hr₁⟩ := hrise _ _ (hc.x x hx) (hc.z z hz)
  exact ⟨r, hr, ⟨by omega, by omega⟩, by omega, by omega⟩

/-- The first chunk of a valid configuration is generated if and only if its arrays are not too
large and it is `Passable`. So it is wherever the ground rises and falls by no more than a limit and
the parameters leave room for that. -/
theorem first_chunk_generated_iff (config : WorldConfig) (reg : Registry)
    (h : config.validate = .ok ()) :
    ((∃ r, (World.new config reg).generate ⟨0, 0⟩ = .ok r) ↔
      config.chunk.cells ≤ arrayLimit ∧
        Passable config.terrain (Terrain.new config.seed config.terrain reg).rise config.chunk
          ⟨0, 0⟩) ∧
    ∀ rise : Int → Int → Checked Int,
      ((∃ r, (newOver config reg rise).generate ⟨0, 0⟩ = .ok r) ↔
        config.chunk.cells ≤ arrayLimit ∧ Passable config.terrain rise config.chunk ⟨0, 0⟩) ∧
      ∀ reach : Int, RisesWithin rise reach →
        config.chunk.cells ≤ arrayLimit →
        -2147483648 ≤ config.terrain.seaLevel - reach →
        config.terrain.seaLevel + reach ≤ 2147483647 →
        FitsCoord (config.terrain.seaLevel + 1) →
        0 ≤ config.terrain.dirtDepth ∧ config.terrain.dirtDepth ≤ 2147483647 →
        0x0AE5 + config.terrain.oreVeins ≤ 4294967296 →
        ∃ r, (newOver config reg rise).generate ⟨0, 0⟩ = .ok r := by
  refine ⟨?_, fun rise => ⟨newOver_isOk_iff h reg rise, ?_⟩⟩
  · -- the ground of the noise is one of those over any rises
    rw [new_eq_newOver]
    exact newOver_isOk_iff h reg _
  · intro reach hrise hcells hlow hhigh hshore hdirt hveins
    have hd : config.chunk.Valid := Dims.Valid.of_validate h
    exact (newOver_isOk_iff h reg rise).2
      ⟨hcells, passable_of_reach hd ((roomy_origin hd).charted hd) hrise hlow hhigh hshore hdirt
        hveins⟩

/-- One column at the origin, where the noise is zero for every seed. -/
theorem first_chunk_generated_iff_column :
    let config : WorldConfig := { chunk := ⟨1, 128, 1⟩, seed := 5, saveDir := some "save" }
    config.validate = .ok () ∧
      ∃ r, (newOver config .builtin fun _ _ => .ok 0).generate ⟨0, 0⟩ = .ok r := by
  intro config
  refine ⟨rfl, ?_⟩
  refine ((first_chunk_generated_iff config .builtin rfl).2 fun _ _ => .ok 0).2 0 ?_ (by decide)
    (by decide) (by decide) (by decide) (by decide) (by decide)
  exact fun _ _ _ _ => ⟨0, rfl, by decide, by decide⟩

/-- Sides whose product is no size, and a sea whose shore is no coordinate, are let through. -/
theorem validated_worlds_stop :
    let vast : WorldConfig := { chunk := ⟨2147483647, 2147483647, 2147483647⟩ }
    let drowned : WorldConfig := { terrain := { seaLevel := 2147483647 } }
    (vast.validate = .ok () ∧
      ∀ reg, (World.new vast reg).generate ⟨0, 0⟩ = .error .overflow) ∧
    drowned.validate = .ok () ∧
      ∀ reg r, (World.new drowned reg).generate ⟨0, 0⟩ ≠ .ok r := by
  intro vast drowned
  refine ⟨⟨rfl, fun reg => ?_⟩, rfl, fun reg r hr => ?_⟩
  · have hlarge : 18446744073709551616 ≤ vast.chunk.cells := by decide
    exact generate_of_new_error (w := World.new vast reg) rfl rfl
      (Chunk.new_of_volume_error (Dims.volume_of_large hlarge))
  · rw [new_eq_newOver] at hr
    have hpassable := (newOver_isOk_iff rfl reg _).1 ⟨r, hr⟩
    exact absurd hpassable.2.shore (by decide)

end World

end VoxelWorld
