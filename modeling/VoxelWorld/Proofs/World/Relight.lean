import VoxelWorld.Proofs.World.Volume
import VoxelWorld.Proofs.Light.Column
import VoxelWorld.World.Streaming

/-!
# Proofs.World.Relight — spreading the light of a chunk

* `Relived` relates worlds that differ in the state of one chunk, and not in its cells.
* `updateLight_ensures` says what relighting a chunk does: no level falls, afterwards no light
  flows out of the chunk, and its light is no longer dirty.
-/

namespace VoxelWorld.World

open Light (RelitIn Calm)

variable {w w' : World} {c : ChunkCoord} {chunk : Chunk} {life : Lifecycle} {p : Pos}
  {faulty : Prop}

/-! ## The state of one chunk -/

/-- The chunk at a coordinate has another state, and the worlds show the same. -/
structure Relived (w w' : World) (c : ChunkCoord) (chunk : Chunk) (life : Lifecycle) : Prop where
  config : w'.config = w.config
  registry : w'.registry = w.registry
  generators : w'.generators = w.generators
  workers : w.workers = none → w'.workers = none
  sound : w'.Sound
  self : w'.chunkAt? c = some { chunk with life }
  other : ∀ c', c' ≠ c → w'.chunkAt? c' = w.chunkAt? c'
  field : w'.field = w.field

/-- Another state of one chunk leaves the world sound and its field as it was. -/
theorem relived_of_store (h : w.Sound) (hc : w.chunkAt? c = some chunk) {f : Chunk → Chunk}
    (hf : f chunk = { chunk with life }) (hstore : w'.store = w.store.modifyAt c f)
    (hconfig : w'.config = w.config) (hregistry : w'.registry = w.registry)
    (hgenerators : w'.generators = w.generators) (hworkers : w.workers = none → w'.workers = none)
    (hfiles : w'.files = w.files) (hfresh : life.fresh = chunk.isFresh)
    (hblank : chunk.isFresh = true → life = chunk.life) : Relived w w' c chunk life := by
  have hdims : w'.dims = w.dims := by
    show w'.config.chunk = w.config.chunk
    rw [hconfig]
  have hset : SetAt w w' c { chunk with life } := by
    intro c'
    have hc' : w.store.getAt? c = some chunk := hc
    unfold chunkAt?
    rw [hstore, ChunkStore.getAt?_modifyAt h.store, hc', Option.map_some, hf]
  have hwell : w'.store.WellFormed := by
    rw [hstore]
    refine h.store.modifyAt fun chunk₀ hget => ?_
    have hc' : w.store.getAt? c = some chunk := hc
    rw [hc'] at hget
    cases hget
    rw [hf]
  have hsound : w'.Sound := by
    refine hset.sound h hdims hfiles hwell (h.dims c chunk hc) (fun hfresh' => ?_)
      (h.storable c chunk hc)
    -- a chunk that is still fresh has not changed
    have hold : chunk.isFresh = true := hfresh ▸ hfresh'
    have hlife : ({ chunk with life } : Chunk) = chunk := by
      rw [hblank hold]
    rw [hlife]
    exact h.fresh c chunk hc hold
  have hfield : w'.field = w.field := by
    apply hset.field_eq h hdims
    · rw [hc]
      show (!life.fresh) = (!chunk.isFresh)
      rw [hfresh]
    · intro cell _
      rw [hc]
      exact ⟨rfl, fun _ => rfl⟩
  exact {
    config := hconfig
    registry := hregistry
    generators := hgenerators
    workers := hworkers
    sound := hsound
    self := hset.self
    other := fun c' hne => hset.other hne
    field := hfield }

namespace Relived

theorem dims (h : Relived w w' c chunk life) : w'.dims = w.dims := by
  show w'.config.chunk = w.config.chunk
  rw [h.config]

/-- If the chunk is as fresh as before, the same chunks are generated. -/
theorem generated (h : Relived w w' c chunk life) (hc : w.chunkAt? c = some chunk)
    (hfresh : life.fresh = chunk.isFresh) {c' : ChunkCoord} :
    w'.Generated c' ↔ w.Generated c' := by
  by_cases hcc : c' = c
  · subst hcc
    unfold Generated
    rw [h.self, hc]
    constructor
    · intro hg
      rcases hg with ⟨chunk', hc', hf⟩
      cases hc'
      exact ⟨chunk, rfl, hfresh ▸ hf⟩
    · intro hg
      rcases hg with ⟨chunk', hc', hf⟩
      cases hc'
      exact ⟨_, rfl, hfresh.trans hf⟩
  · unfold Generated
    rw [h.other c' hcc]

end Relived

/-! ## Relighting -/

/-- A chunk that is not generated is not relit. -/
theorem updateLight_of_not_generated (h : ¬ w.Generated c) : w.updateLight c = .ok (false, w) := by
  unfold updateLight
  cases hc : w.chunkAt? c with
  | none => rfl
  | some chunk =>
    have hfresh : chunk.isFresh = true := by
      by_contra hf
      exact h ⟨chunk, hc, Bool.not_eq_true _ ▸ hf⟩
    simp only [hfresh, if_true]
    rfl

/-- Relighting a chunk asks for its corner first. -/
theorem relight_of_corner {P : World → Prop}
    (hcorner : ¬ (FitsCoord (c.x * w.dims.width) ∧ FitsCoord (c.z * w.dims.depth)))
    (hfaulty : faulty) : Ensures faulty (Light.relight w.registry w c w.dims) P := by
  unfold Light.relight ChunkCoord.worldX ChunkCoord.worldZ
  by_cases hx : FitsCoord (c.x * w.dims.width)
  · have hz : ¬ FitsCoord (c.z * w.dims.depth) := fun hz => hcorner ⟨hx, hz⟩
    have herr : checkCoord (c.z * w.dims.depth) = .error .overflow := if_neg hz
    rw [checkCoord_of_fits hx, herr]
    exact hfaulty
  · have herr : checkCoord (c.x * w.dims.width) = .error .overflow := if_neg hx
    rw [herr]
    exact hfaulty

/-- The light of all cells of a chunk is spread into the world. -/
theorem relight_world_ensures (h : w.Sound) (hspace : Spacious faulty w.dims w.Generated)
    (hc : w.Generated c) : Ensures faulty (Light.relight w.registry w c w.dims) fun w' =>
      Tracked w w' ∧ RelitIn w.registry (InChunks w.dims w.Generated) (InChunks w.dims (· = c))
        w.field w'.field ∧ ∀ p, InChunks w.dims (· = c) p → Calm w.registry w'.field p := by
  have hd := h.valid
  have hw := hd.width
  have hdep := hd.depth
  have hh := hd.height
  -- without a corner in the world the loop stops before it writes anything
  by_cases hcorner : FitsCoord (c.x * w.dims.width) ∧ FitsCoord (c.z * w.dims.depth)
  · have hfx : FitsCoord (c.x * w.dims.x) := by
      rw [← hw]
      exact hcorner.1
    have hfz : FitsCoord (c.z * w.dims.z) := by
      rw [← hdep]
      exact hcorner.2
    -- the loop runs over the cells of the chunk
    have hcells : ∀ {R : ChunkCoord → Prop}, R c → ∀ x ∈ sideRange w.dims.width,
        ∀ z ∈ sideRange w.dims.depth, ∀ y ∈ sideRange w.dims.height,
          InChunks w.dims R ⟨c.x * w.dims.width + x, y, c.z * w.dims.depth + z⟩ := by
      intro R hR x hx z hz y hy
      rcases mem_sideRange.1 hx with ⟨hx0, hx1⟩
      rcases mem_sideRange.1 hy with ⟨hy0, hy1⟩
      rcases mem_sideRange.1 hz with ⟨hz0, hz1⟩
      rw [hw, hdep]
      exact inChunks_of_local hd hfx hfz hR ⟨hx0, hy0, hz0, by omega, by omega, by omega⟩
    refine (Light.relight_ensures (volumeLaws hd hspace) (Tracked.refl h)
      (fun hn => absurd hcorner hn) ?_ (hcells hc) (hcells (R := (· = c)) rfl)).mono ?_
    · intro x hx z hz hn
      rcases mem_sideRange.1 hx with ⟨hx0, hx1⟩
      rcases mem_sideRange.1 hz with ⟨hz0, hz1⟩
      refine hspace.roomy c hc fun hr => hn ?_
      rcases hr with ⟨hxl, hxh, hzl, hzh⟩
      exact ⟨⟨by omega, by omega⟩, ⟨by omega, by omega⟩⟩
    · intro w' hw'
      rcases hw' with ⟨htracked, hrelit, hcalm⟩
      refine ⟨htracked, hrelit, fun p hp => ?_⟩
      rcases local_of_inChunks hd hp with ⟨x, y, z, ⟨hx0, hy0, hz0, hx1, hy1, hz1⟩, rfl⟩
      have := hcalm x (mem_sideRange.2 ⟨hx0, by omega⟩) z (mem_sideRange.2 ⟨hz0, by omega⟩) y
        (mem_sideRange.2 ⟨hy0, by omega⟩)
      rwa [hw, hdep] at this
  · exact relight_of_corner hcorner (hspace.roomy c hc fun hr => hcorner (hr.corner hd))

/-- What relighting a generated chunk does. -/
structure Lit (w w' : World) (c : ChunkCoord) : Prop where
  tracked : ∃ w₁ chunk, Tracked w w₁ ∧ w₁.chunkAt? c = some chunk ∧
    Relived w₁ w' c chunk { chunk.life with lightDirty := false }
  relit : RelitIn w.registry (InChunks w.dims w.Generated) (InChunks w.dims (· = c)) w.field
    w'.field
  calm : ∀ p, InChunks w.dims (· = c) p → Calm w.registry w'.field p

/-- Relighting ends with the flag put out, which shows in no field. -/
theorem Lit.of_relived {w₁ : World} (htracked : Tracked w w₁)
    (hrelit : RelitIn w.registry (InChunks w.dims w.Generated) (InChunks w.dims (· = c)) w.field
      w₁.field)
    (hcalm : ∀ p, InChunks w.dims (· = c) p → Calm w.registry w₁.field p)
    (hc : w₁.chunkAt? c = some chunk)
    (hrelived : Relived w₁ w' c chunk { chunk.life with lightDirty := false }) : Lit w w' c where
  tracked := ⟨w₁, chunk, htracked, hc, hrelived⟩
  relit := by
    rw [hrelived.field]
    exact hrelit
  calm p hp := by
    rw [hrelived.field]
    exact hcalm p hp

/-- A generated chunk is relit, all of it, or there is no room. -/
theorem updateLight_ensures (h : w.Sound) (hspace : Spacious faulty w.dims w.Generated)
    (hc : w.Generated c) : Ensures faulty (w.updateLight c) fun r => Lit w r.2 c := by
  have hc' := hc
  rcases hc' with ⟨chunk, hchunk, hfresh⟩
  unfold updateLight
  simp only [hchunk, hfresh, Bool.false_eq_true, if_false]
  apply (relight_world_ensures h hspace hc).bind
  intro w₁ hw₁
  rcases hw₁ with ⟨htracked, hrelit, hcalm⟩
  rcases htracked.kept c chunk hchunk with ⟨chunk₁, hchunk₁, hk⟩
  have hfresh₁ : chunk₁.isFresh = false := hk.isFresh.trans hfresh
  -- what is left is to clear the flag
  refine Ensures.pure (Lit.of_relived htracked hrelit hcalm hchunk₁ ?_)
  refine relived_of_store htracked.sound hchunk₁ (f := (·.withLightDirty false)) rfl rfl rfl rfl
    rfl id rfl rfl fun hf => ?_
  rw [hfresh₁] at hf
  cases hf

namespace Lit

theorem sound (h : Lit w w' c) : w'.Sound := by
  rcases h.tracked with ⟨w₁, chunk, -, -, hrelived⟩
  exact hrelived.sound

theorem dims (h : Lit w w' c) : w'.dims = w.dims := by
  rcases h.tracked with ⟨w₁, chunk, htracked, -, hrelived⟩
  exact hrelived.dims.trans htracked.dims

theorem registry (h : Lit w w' c) : w'.registry = w.registry := by
  rcases h.tracked with ⟨w₁, chunk, htracked, -, hrelived⟩
  exact hrelived.registry.trans htracked.registry

/-- Relighting generates no chunk. -/
theorem generated (h : Lit w w' c) : w'.Generated = w.Generated := by
  rcases h.tracked with ⟨w₁, chunk, htracked, hchunk, hrelived⟩
  rw [← htracked.generated_eq]
  exact funext fun c' => propext (hrelived.generated hchunk rfl)

end Lit

end VoxelWorld.World
