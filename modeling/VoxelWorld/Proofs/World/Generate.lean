import VoxelWorld.Proofs.Light.Seed
import VoxelWorld.Proofs.World.Tracked
import VoxelWorld.World.Streaming

/-!
# Proofs.World.Generate — filling a fresh chunk

* `Filled` says what `generate` does to a world in which the chunk is not generated: the
  chunk is, it holds the sky light of its columns and no block light, and all other chunks
  are as they were.
* `generate_of_generated` says that it does nothing to a generated chunk.
* `generate_ensures` says that these are the two things that it can do.
-/

namespace VoxelWorld

namespace Chunk

variable {c : Chunk} {faulty : Prop}

/-- A pass writes blocks and nothing else. -/
theorem populate_ensures {pass : ChunkCoord → (d : Dims) → BlockArray d → Checked (BlockArray d)}
    (hpass : ∀ blocks e, pass c.coord c.dims blocks = .error e → faulty) :
    Ensures faulty (c.populate pass) fun c' => c'.coord = c.coord ∧ c'.dims = c.dims ∧
      c'.life = c.life ∧ (∀ x y z k, c'.light x y z k = c.light x y z k) ∧
      ∃ blocks, pass c.coord c.dims c.blocks = .ok blocks ∧
        ∀ x y z, c'.block x y z = blocks.get x y z := by
  rcases c with ⟨coord, dims, blocks, skyLight, blockLight, life⟩
  unfold populate
  refine Ensures.bind (P := fun blocks' => pass coord dims blocks = .ok blocks') ?_ ?_
  · exact Ensures.intro (fun _ hok => hok) fun e he => hpass blocks e he
  · intro blocks' hok
    refine Ensures.pure ⟨rfl, rfl, rfl, fun x y z k => ?_, blocks', hok, fun x y z => rfl⟩
    cases k <;> rfl

end Chunk

/-- The generators place only blocks with a property into chunks that hold no others. -/
def GeneratorSet.Keeps (s : GeneratorSet) (Q : BlockId → Prop) : Prop :=
  ∀ c (d : Dims) (blocks blocks' : BlockArray d), (∀ x y z, Q (blocks.get x y z)) →
    s.runAll c d blocks = .ok blocks' → ∀ x y z, Q (blocks'.get x y z)

namespace World

variable {w w' : World} {c c' : ChunkCoord} {p : Pos} {chunk : Chunk} {faulty : Prop}

/-- The fresh chunk of a coordinate was filled. -/
structure Filled (w w' : World) (c : ChunkCoord) : Prop where
  rest : w' = { w with store := w'.store, stats := w'.stats }
  sound : w'.Sound
  fresh : ¬ w.Generated c
  other : ∀ c', c' ≠ c → w'.chunkAt? c' = w.chunkAt? c'
  chunk : ∃ chunk, w'.chunkAt? c = some chunk ∧ chunk.life = { Lifecycle.new with fresh := false }
  skyLight : ∀ p, InChunks w.dims (· = c) p →
    w'.field.level .sky p = w'.field.skylight w.registry w.dims.height p
  blockLight : ∀ p, InChunks w.dims (· = c) p → w'.field.level .block p = 0
  block : ∀ Q : BlockId → Prop, Q air → w.generators.Keeps Q →
    ∀ p, InChunks w.dims (· = c) p → Q (w'.field.block p)

namespace Filled

theorem dims (h : Filled w w' c) : w'.dims = w.dims := by
  rw [h.rest]
  rfl

theorem registry (h : Filled w w' c) : w'.registry = w.registry := by
  rw [h.rest]

/-- One more chunk is generated. -/
theorem generated (h : Filled w w' c) : w'.Generated c' ↔ c' = c ∨ w.Generated c' := by
  by_cases hc : c' = c
  · subst hc
    rcases h.chunk with ⟨chunk, hchunk, hlife⟩
    refine ⟨fun _ => .inl rfl, fun _ => ⟨chunk, hchunk, ?_⟩⟩
    unfold Chunk.isFresh
    rw [hlife]
  · unfold Generated
    rw [h.other c' hc]
    constructor
    · intro hgen
      exact .inr hgen
    · intro hgen
      exact hgen.resolve_left hc

/-- The cells of the generated chunks are new or were there before. -/
theorem inChunks (h : Filled w w' c) (hp : InChunks w'.dims w'.Generated p) :
    InChunks w.dims (· = c) p ∨
      ¬ InChunks w.dims (· = c) p ∧ InChunks w.dims w.Generated p := by
  rw [h.dims] at hp
  by_cases hpc : InChunks w.dims (· = c) p
  · exact .inl hpc
  · refine .inr ⟨hpc, ?_⟩
    rcases hp with ⟨cell, hs, hgen⟩
    rcases h.generated.1 hgen with heq | hgen'
    · exact absurd ⟨cell, hs, heq⟩ hpc
    · exact ⟨cell, hs, hgen'⟩

/-- Away from the chunk nothing changed. -/
theorem sameAt (h : Filled w w' c) (hp : ¬ InChunks w.dims (· = c) p) (hd : w.dims.Valid) :
    w'.field.SameAt w.field p := by
  refine sameAt_of_chunks hd h.dims fun cell hs => ?_
  have hne : cell.chunk ≠ c := fun heq => hp ⟨cell, hs, heq⟩
  rw [h.other _ hne]
  exact ⟨rfl, rfl, fun _ => rfl⟩

/-- Columns belong to one chunk, so the others get from the sky what they got before. -/
theorem skylight_eq {R : ChunkCoord → Prop} (h : Filled w w' c) (hd : w.dims.Valid)
    (hp : InChunks w.dims R p) (hpc : ¬ InChunks w.dims (· = c) p) :
    w'.field.skylight w'.registry w'.dims.height p =
      w.field.skylight w.registry w.dims.height p := by
  rw [h.registry, h.dims]
  refine LightField.skylight_congr rfl fun y hle hlt => (h.sameAt ?_ hd).block
  -- the cells above are not in the new chunk either
  intro hin
  apply hpc
  rcases (inChunks_iff hd).1 hp with ⟨-, hy, hfits⟩
  exact (inChunks_iff hd).2 ⟨((inChunks_iff hd).1 hin).1, hy, hfits⟩

/-- Blank chunks that came in before play no part. -/
theorem of_framed {w₁ : World} (h : Filled w₁ w' c) (hframed : Framed w w₁)
    (hat : ∀ c', c' ≠ c → w₁.chunkAt? c' = w.chunkAt? c') : Filled w w' c where
  rest := by rw [h.rest, hframed.rest]
  sound := h.sound
  fresh hgen := h.fresh (hframed.generated.2 hgen)
  other c' hne := (h.other c' hne).trans (hat c' hne)
  chunk := h.chunk
  skyLight p hp := by
    rw [← hframed.dims] at hp ⊢
    rw [← hframed.registry]
    exact h.skyLight p hp
  blockLight p hp := by
    rw [← hframed.dims] at hp
    exact h.blockLight p hp
  block Q hair hkeeps p hp := by
    rw [← hframed.dims] at hp
    refine h.block Q hair ?_ p hp
    rw [hframed.rest]
    exact hkeeps

end Filled

/-! ## Generated chunks -/

/-- A chunk that is there is not brought in again. -/
theorem loadOrCreate_of_resident {id : ChunkId} (hid : w.store.idOf? c = some id) :
    w.loadOrCreate c = .ok (id, w) := by
  unfold loadOrCreate
  rw [hid]
  rfl

/-- Generating a chunk twice does nothing. -/
theorem generate_of_generated (h : w.Generated c) : w.generate c = .ok (false, w) := by
  rcases h with ⟨chunk, hc, hfresh⟩
  rcases chunkAt?_eq_some.1 hc with ⟨id, hid, hget⟩
  unfold generate
  refine Checked.bind_eq_ok.2 ⟨_, loadOrCreate_of_resident hid, ?_⟩
  simp only [hget, hfresh, Bool.not_false, if_true]
  rfl

/-! ## Fresh chunks -/

/-- A fresh chunk, filled and lit. -/
structure Populated (w : World) (chunk chunk' : Chunk) : Prop where
  coord : chunk'.coord = chunk.coord
  dims : chunk'.dims = chunk.dims
  life : chunk'.life = { chunk.life with fresh := false }
  blockLight : ∀ x y z, chunk.dims.Contains x y z → chunk'.light x y z .block = 0
  skyLight : ∀ (f : LightField) (p : Pos) x z, chunk.dims.Contains x p.y z →
    (∀ y, 0 ≤ y → y < chunk.dims.height → f.block ⟨p.x, y, p.z⟩ = chunk'.block x y z) →
    chunk'.light x p.y z .sky = f.skylight w.registry chunk.dims.height p
  block : ∀ Q : BlockId → Prop, Q air → w.generators.Keeps Q →
    ∀ x y z, chunk.dims.Contains x y z → Q (chunk'.block x y z)

/-- A blank chunk is filled, gets the light of the sky, and stays where it was. -/
theorem populate_ensures (hd : chunk.dims.Valid) (hblank : chunk.Blank)
    (hroom : ¬ Roomy chunk.dims chunk.coord → faulty)
    (hgen : ∀ blocks e, w.generators.runAll chunk.coord chunk.dims blocks = .error e → faulty) :
    Ensures faulty (w.populate chunk) (Populated w chunk) := by
  unfold populate
  apply (Chunk.populate_ensures hgen).bind
  intro chunk₁ h₁
  rcases h₁ with ⟨hcoord, hdims, hlife, hlight, blocks, hrun, hblocks⟩
  rw [← hdims] at hd hroom
  rw [← hcoord] at hroom
  apply (Light.seedSky_ensures hd hroom).bind
  intro chunk₂ hseed
  have hh := hd.height
  -- coordinate, dimensions, flags, then lamp light, sky light and blocks
  refine Ensures.pure ⟨hseed.coord.trans hcoord, hseed.dims.trans hdims, ?_, ?_, ?_, ?_⟩
  · show { chunk₂.life with fresh := false } = _
    rw [hseed.life, hlife]
  · intro x y z hc
    show chunk₂.light x y z .block = 0
    rw [hseed.blockLight x y z (by rw [hdims]; exact hc), hlight]
    exact hblank.light x y z .block hc
  · intro f p x z hc hcol
    show chunk₂.light x p.y z .sky = _
    rw [← hdims] at hc hcol ⊢
    -- seeding left the blocks of the column alone
    refine hseed.skyLight f p x z hc fun y hy hy' => ?_
    rw [hcol y hy hy']
    exact hseed.block x y z ⟨hc.1, hy, hc.2.2.1, hc.2.2.2.1, by omega, hc.2.2.2.2.2⟩
  · intro Q hair hkeeps x y z hc
    show Q (chunk₂.block x y z)
    rw [hseed.block x y z (by rw [hdims]; exact hc), hblocks]
    refine hkeeps _ _ _ _ (fun x y z => ?_) hrun x y z
    have hb := hblank.block x y z
    unfold Chunk.block at hb
    rw [hb]
    exact hair

/-- The world with a filled chunk at a coordinate, counted. -/
def withFilled (w : World) (c : ChunkCoord) (chunk' : Chunk) : World :=
  { w.modifyAt c fun _ => chunk' with
    stats := { w.stats with generated := w.stats.generated + 1 } }

section Replace

variable {chunk' : Chunk} (h : w.Sound) (hc : w.chunkAt? c = some chunk) (hblank : chunk.Blank)
  (hpop : Populated w chunk chunk')

include hblank hpop in
/-- It is no longer fresh, and has no mesh. -/
theorem Populated.life_eq : chunk'.life = { Lifecycle.new with fresh := false } := by
  rw [hpop.life, hblank.life]

include h hc

/-- The filled chunk takes the place of the fresh one. -/
theorem setAt_withFilled : SetAt w (w.withFilled c chunk') c chunk' :=
  setAt_modifyAt h hc fun _ => chunk'

include hblank hpop

/-- The world stays sound. -/
theorem withFilled_sound : (w.withFilled c chunk').Sound := by
  refine (setAt_withFilled h hc).sound h rfl rfl (h.store.modifyAt fun chunk₀ hget => ?_)
    (hpop.dims.trans (h.dims c chunk hc)) (fun hfresh => ?_) (h.storable c chunk hc)
  · rw [hpop.coord, h.store.coord hc]
    exact (h.store.coord hget).symm
  · -- the filled chunk is not fresh, so that nothing is asked of its cells
    unfold Chunk.isFresh at hfresh
    rw [hpop.life_eq hblank] at hfresh
    cases hfresh

/-- The sky light of the chunk is that of its columns in the world. -/
theorem skyLight_withFilled (hp : InChunks w.dims (· = c) p) :
    (w.withFilled c chunk').field.level .sky p =
      (w.withFilled c chunk').field.skylight w.registry w.dims.height p := by
  have hsound := withFilled_sound h hc hblank hpop
  have hself : (w.withFilled c chunk').chunkAt? c = some chunk' := (setAt_withFilled h hc).self
  have hdims : chunk.dims = w.dims := h.dims c chunk hc
  rcases hp with ⟨cell, hs, rfl⟩
  have hcell := h.cell_contains hs
  rcases (Pos.split_eq_some h.valid).1 hs with ⟨hcelleq, ⟨hy0, hy1⟩, hfits⟩
  have hcy : (cell.y : Int) = p.y := by
    rw [hcelleq]
    exact Pos.cell_y hy0
  rw [(field_self hsound hs hself).2.2 .sky, hcy, ← hdims]
  refine hpop.skyLight _ p cell.x cell.z (by rw [hdims, ← hcy]; exact hcell) ?_
  intro y hy hy'
  -- the cells of the column lie in the same chunk
  have hs' : (⟨p.x, y, p.z⟩ : Pos).split w.dims =
      .ok (some ⟨cell.chunk, cell.x, y.toNat, cell.z⟩) := by
    rw [hdims, h.valid.height] at hy'
    refine (Pos.split_eq_some h.valid).2 ⟨?_, ⟨hy, hy'⟩, hfits⟩
    rw [hcelleq]
    rfl
  rw [(field_self hsound hs' hself).2.1]
  show chunk'.block cell.x y.toNat cell.z = _
  rw [Int.toNat_of_nonneg hy]

/-- Putting a filled chunk in the place of a blank one. -/
theorem filled_of_populated : Filled w (w.withFilled c chunk') c := by
  have hsound := withFilled_sound h hc hblank hpop
  have hself : (w.withFilled c chunk').chunkAt? c = some chunk' := (setAt_withFilled h hc).self
  have hdims : chunk.dims = w.dims := h.dims c chunk hc
  refine ⟨rfl, hsound, ?_, ?_, ⟨chunk', hself, hpop.life_eq hblank⟩,
    fun p hp => skyLight_withFilled h hc hblank hpop hp, ?_, ?_⟩
  · intro hgen
    cases hblank.isFresh.symm.trans (hgen.isFresh hc)
  · intro c' hne
    exact (setAt_withFilled h hc).other hne
  · intro p hp
    rcases hp with ⟨cell, hs, rfl⟩
    rw [(field_self hsound hs hself).2.2 .block]
    exact hpop.blockLight _ _ _ (by rw [hdims]; exact h.cell_contains hs)
  · intro Q hair hkeeps p hp
    rcases hp with ⟨cell, hs, rfl⟩
    rw [(field_self hsound hs hself).2.1]
    exact hpop.block Q hair hkeeps _ _ _ (by rw [hdims]; exact h.cell_contains hs)

end Replace

/-- The chunk is generated afterwards; only a fresh one is touched. -/
theorem generate_ensures (h : w.Sound) (hnew : ∀ e, Chunk.new c w.dims = .error e → faulty)
    (hroom : ¬ Roomy w.dims c → faulty)
    (hgen : ∀ blocks e, w.generators.runAll c w.dims blocks = .error e → faulty) :
    Ensures faulty (w.generate c) fun r => w.Generated c ∧ r.2 = w ∨ Filled w r.2 c := by
  by_cases hgenerated : w.Generated c
  · rw [generate_of_generated hgenerated]
    exact Ensures.ok (.inl ⟨hgenerated, rfl⟩)
  · unfold generate
    apply (loadOrCreate_ensures h hnew).bind
    intro r hr
    rcases r with ⟨id, w₁⟩
    simp only at hr
    rcases hr with ⟨hframed, -, hid, chunk, hwas, hset⟩
    have hc : w₁.chunkAt? c = some chunk := hset.self
    have hget : w₁.store.get? id = some chunk := by
      rcases chunkAt?_eq_some.1 hc with ⟨id', hid', hget⟩
      rw [hid] at hid'
      cases hid'
      exact hget
    -- a chunk that is there and not generated is as blank as a new one
    have hblank : chunk.Blank := by
      rcases hwas with hwas | ⟨-, hblank⟩
      · refine h.fresh c chunk hwas ?_
        by_contra hf
        exact hgenerated ⟨chunk, hwas, Bool.not_eq_true _ ▸ hf⟩
      · exact hblank
    have hdims : chunk.dims = w.dims := (hframed.sound.dims c chunk hc).trans hframed.dims
    have hcoord : chunk.coord = c := hframed.sound.store.coord hc
    have hgens : w₁.generators = w.generators := by rw [hframed.rest]
    have hfresh := hblank.isFresh
    simp only [hget, hfresh, Bool.not_true, Bool.false_eq_true, if_false]
    refine (populate_ensures (by rw [hdims]; exact h.valid) hblank
      (by rw [hdims, hcoord]; exact hroom) (by rw [hdims, hcoord, hgens]; exact hgen)).bind
      fun chunk' hpop => ?_
    refine Ensures.pure (.inr ?_)
    rw [modify_eq_modifyAt hid]
    have hfilled := filled_of_populated hframed.sound hc hblank hpop
    exact hfilled.of_framed hframed fun c' hne => hset.other hne

end World

end VoxelWorld
