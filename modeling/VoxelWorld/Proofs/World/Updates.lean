import VoxelWorld.Proofs.World.Edit
import VoxelWorld.Proofs.World.MeshJobs

/-!
# Proofs.World.Updates — the operations of a world with a save directory

* `Refilled` is what filling a fresh chunk does, and `generate_spec` says that generating is that,
  after some growing, or growing alone.
* Relighting and what follows an edit are growing alone (`updateLight_grew`, `afterEdit_grew`): they
  keep what marking chunks and writing levels keep (`afterEdit_safe`). Building a mesh leaves all
  cells as they are besides (`settleMesh_cells`). Building it on a copy does not stop either where
  the cells of the copy can be numbered (`faithful_of_numbered`).
-/

namespace VoxelWorld.World

open Lifecycle (SameFlags)

variable {w w' w₀ : World} {c : ChunkCoord} {chunk : Chunk} {p : Pos} {cell : Cell}
  {id old : BlockId} {faulty : Prop} {S : ChunkCoord → Prop}

/-- Nothing is asked of the chunks of a run that may stop anywhere. -/
theorem Room.anywhere (hd : w.dims.Valid) : Room True (fun _ => True) w :=
  ⟨hd, ⟨fun _ _ _ => trivial, fun _ _ _ => trivial⟩, fun _ _ _ _ => trivial⟩

/-! ## Light -/

/-- Relighting a chunk makes the world grow at most, for its floods only write levels. -/
theorem relight_grew (h : Room faulty S w) (hi : w.store.Intact) (hS : S c) :
    Ensures faulty (Light.relight w.registry w c w.dims) (Grew w) := by
  have hw := h.valid.width
  have hdep := h.valid.depth
  have hh := h.valid.height
  -- without a corner in the world nothing is written
  by_cases hcorner : FitsCoord (c.x * w.dims.width) ∧ FitsCoord (c.z * w.dims.depth)
  · refine Light.relight_safe (safeVolume h) (Grew.refl hi) (fun hn => absurd hcorner hn) ?_ ?_
    · intro x hx z hz hn
      rcases mem_sideRange.1 hx with ⟨hx0, hx1⟩
      rcases mem_sideRange.1 hz with ⟨hz0, hz1⟩
      refine h.spacious.roomy c hS fun hr => hn ?_
      exact ⟨hr.fits_x (by omega) (by omega), hr.fits_z (by omega) (by omega)⟩
    · intro x hx z hz y hy
      rcases mem_sideRange.1 hx with ⟨hx0, hx1⟩
      rcases mem_sideRange.1 hy with ⟨hy0, hy1⟩
      rcases mem_sideRange.1 hz with ⟨hz0, hz1⟩
      rw [hw, hdep] at hcorner ⊢
      exact inChunks_of_local h.valid hcorner.1 hcorner.2 hS
        ⟨hx0, hy0, hz0, by omega, by omega, by omega⟩
  · exact relight_of_corner hcorner (h.spacious.roomy c hS fun hr => hcorner (hr.corner h.valid))

/-- The light of the chunk was spread, if it is generated. -/
def LightSpread (w : World) (c : ChunkCoord) : Prop :=
  ∀ chunk, w.chunkAt? c = some chunk → chunk.isFresh = false → chunk.isLightDirty = false

/-- With the flag put out the light of the chunk was spread. -/
theorem updateLight_grew (h : Room faulty S w) (hi : w.store.Intact) :
    Ensures faulty (w.updateLight c) fun r => Grew w r.2 ∧ r.2.LightSpread c := by
  unfold updateLight
  cases hc : w.chunkAt? c with
  | none =>
    refine Ensures.pure ⟨Grew.refl hi, fun chunk hc' => ?_⟩
    rw [hc] at hc'
    cases hc'
  | some chunk =>
    refine Ensures.ite (fun hfresh => ?_) fun hfresh => ?_
    · refine Ensures.pure ⟨Grew.refl hi, fun chunk' hc' hf' => ?_⟩
      rw [hc] at hc'
      cases hc'
      rw [hfresh] at hf'
      cases hf'
    · have hS : S c := h.inside c chunk (.inl hc) (Bool.not_eq_true _ ▸ hfresh)
      apply (relight_grew h hi hS).bind
      intro w₁ hw₁
      rcases hw₁.kept c chunk hc with ⟨chunk₁, hc₁, -⟩
      -- what is left is to clear the flag
      apply Ensures.pure
      constructor
      · refine hw₁.trans ?_
        exact grew_of_store hw₁.intact hc₁ (f := (·.withLightDirty false)) rfl
          ⟨rfl, rfl, rfl, rfl, rfl, fun hw => hw⟩ (Chunk.SameBlocks.withLife rfl nofun)
      · have hset : SetAt w₁ (w₁.modifyAt c (·.withLightDirty false)) c _ :=
          setAt_of_store hw₁.intact hc₁ rfl
        intro chunk' hc' _
        cases hset.self.symm.trans hc'
        rfl

/-- Where the flag is out already there is nothing to do. -/
theorem settleLight_grew (h : Room faulty S w) (hi : w.store.Intact) :
    Ensures faulty (w.settleLight c) fun r => Grew w r.2 ∧ r.2.LightSpread c := by
  unfold settleLight
  cases hc : w.chunkAt? c with
  | none =>
    refine Ensures.pure ⟨Grew.refl hi, fun chunk hc' => ?_⟩
    rw [hc] at hc'
    cases hc'
  | some chunk =>
    -- clean light was spread before
    refine Ensures.ite (fun _ => updateLight_grew h hi) fun hclean => ?_
    refine Ensures.pure ⟨Grew.refl hi, fun chunk' hc' _ => ?_⟩
    rw [hc] at hc'
    cases hc'
    exact Bool.not_eq_true _ ▸ hclean

/-! ## Meshes -/

/-- Only the states of chunks are other ones. -/
structure SameCells (w w' : World) : Prop extends Grew w w' where
  cells : ∀ c, (w'.chunkAt? c).map Chunk.cells = (w.chunkAt? c).map Chunk.cells

theorem SameCells.refl (hi : w.store.Intact) : SameCells w w := ⟨Grew.refl hi, fun _ => rfl⟩

/-- Another state with the same flags changes no cell. -/
theorem sameCells_withLife {life : Lifecycle} (hi : w.store.Intact)
    (hc : w.chunkAt? c = some chunk) (hflags : SameFlags chunk.life life)
    (hstore : w'.store = w.store.modifyAt c fun chunk => { chunk with life })
    (hbase : SameBase w w') : SameCells w w' where
  toGrew := by
    refine grew_of_store hi hc hstore hbase (Chunk.SameBlocks.withLife hflags.1 fun hd => ?_)
    rw [← hflags.2]
    exact hd
  cells c' := by
    rw [setAt_of_store hi hc hstore c']
    split
    · rename_i heq
      rw [heq, hc]
      rfl
    · rfl

/-- A mesh built in place changes only the state of its chunk. -/
theorem meshInPlace_cells (hd : w.dims.Valid) (hi : w.store.Intact)
    (hroom : ¬ Roomy w.dims c → faulty) (hc : w.chunkAt? c = some chunk) :
    Ensures faulty (w.meshInPlace c chunk.life) fun r => SameCells w r.2 := by
  unfold meshInPlace
  apply (build_world_ensures hd hroom).bind
  intro g _
  have hflags : SameFlags chunk.life (chunk.life.installMesh (.new g) w.gpu).2.1 :=
    Lifecycle.installMesh_sameFlags
  rcases hinstall : chunk.life.installMesh (.new g) w.gpu with ⟨installed, life, gpu⟩
  rw [hinstall] at hflags
  refine Ensures.ite (fun _ => Ensures.pure ?_) fun _ => Ensures.pure ?_
  · exact sameCells_withLife hi hc hflags rfl ⟨rfl, rfl, rfl, rfl, rfl, fun hw => hw⟩
  · exact sameCells_withLife hi hc hflags rfl ⟨rfl, rfl, rfl, rfl, rfl, fun hw => hw⟩

/-- Handing a job over and finishing it leave the flags that count. -/
theorem submit_sameFlags {workers : MeshWorkers} {snapshot : Snapshot} {life : Lifecycle}
    {gpu : Gpu} :
    SameFlags life (workers.submit snapshot { life with dirty := false } gpu).2.2.1 := by
  have hflags : SameFlags { life with dirty := false }
      (Lifecycle.beginMesh { life with dirty := false } gpu).2.1 := Lifecycle.beginMesh_sameFlags
  exact hflags

/-- A job that ends exchanges meshes and touches no flag. -/
theorem finish_sameFlags {job : MeshJob} {reg : Registry} {life : Lifecycle} {gpu : Gpu}
    (hbuild : Ensures faulty (Mesher.build reg job.snapshot job.snapshot.coord job.snapshot.dims)
      fun _ => True) : Ensures faulty (job.finish reg life gpu) fun r => SameFlags life r.2.1 := by
  unfold MeshJob.finish
  apply hbuild.bind
  intro g _
  exact Ensures.pure Lifecycle.installIfCurrent_sameFlags

/-- A copy can be made and built from, unless there is no room for the chunk or its cells have no
numbers. -/
theorem faithful_of_numbered (hd : w.dims.Valid) (hroom : ¬ Roomy w.dims c → faulty)
    (hnumbered : ¬ Snapshot.Numbered w.dims → faulty) :
    faulty ∨ Snapshot.Faithful w c w.dims := by
  by_cases hr : Roomy w.dims c
  · by_cases hn : Snapshot.Numbered w.dims
    · exact .inr (w.faithful (.of_roomy hd hr hn) fun _ => ⟨hd.x_pos, hd.z_pos⟩)
    · exact .inl (hnumbered hn)
  · exact .inl (hroom hr)

/-- A mesh built by a worker changes the state of its chunk, and the counters of the workers. -/
theorem meshByJob_cells (hi : w.store.Intact) (hcopy : faulty ∨ Snapshot.Faithful w c w.dims)
    (hc : w.chunkAt? c = some chunk) {workers : MeshWorkers} (hworkers : w.workers = some workers) :
    Ensures faulty (w.meshByJob c workers chunk.life) (SameCells w) := by
  -- either any stop is excused, or the copy shows what the world does
  have hcapture : Ensures faulty (Snapshot.capture w c w.dims) fun s =>
      ∀ reg, Ensures faulty (Mesher.build reg s s.coord s.dims) fun _ => True := by
    rcases hcopy with hf | ⟨s, hs, hbuild⟩
    · exact (Ensures.anyhow hf).mono fun s _ reg => Ensures.anyhow hf
    · rw [hs]
      refine Ensures.ok fun reg => ?_
      rcases hbuild reg with ⟨g, hg, -⟩
      rw [hg]
      exact Ensures.ok trivial
  unfold meshByJob
  apply hcapture.bind
  intro snapshot hbuild
  have hbegin : SameFlags chunk.life
      (workers.submit snapshot { chunk.life with dirty := false } w.gpu).2.2.1 := submit_sameFlags
  have hjob : (workers.submit snapshot { chunk.life with dirty := false } w.gpu).1.snapshot =
      snapshot := rfl
  rcases hsubmit : workers.submit snapshot { chunk.life with dirty := false } w.gpu with
    ⟨job, workers', life, gpu⟩
  rw [hsubmit] at hbegin hjob
  simp only at hjob
  subst hjob
  apply (finish_sameFlags (hbuild w.registry)).bind
  rintro ⟨done, life', gpu'⟩ hflags
  have hall : SameFlags chunk.life life' := ⟨hflags.1.trans hbegin.1, hflags.2.trans hbegin.2⟩
  refine Ensures.pure (sameCells_withLife hi hc hall rfl ⟨rfl, rfl, rfl, rfl, rfl, fun hnone => ?_⟩)
  rw [hworkers] at hnone
  cases hnone

/-- However a mesh is built, no cell changes. -/
theorem generateMesh_cells (hd : w.dims.Valid) (hi : w.store.Intact)
    (hroom : ¬ Roomy w.dims c → faulty)
    (hjobs : w.workers ≠ none → ¬ Snapshot.Numbered w.dims → faulty) :
    Ensures faulty (w.generateMesh c) fun r => SameCells w r.2 := by
  unfold generateMesh
  cases hc : w.chunkAt? c with
  | none => exact Ensures.pure (SameCells.refl hi)
  | some chunk =>
    refine Ensures.ite (fun _ => Ensures.pure (SameCells.refl hi)) fun _ => ?_
    cases hw : w.workers with
    | none => exact meshInPlace_cells hd hi hroom hc
    | some workers =>
      have hcopy : faulty ∨ Snapshot.Faithful w c w.dims := by
        refine faithful_of_numbered hd hroom (hjobs ?_)
        rw [hw]
        nofun
      exact (meshByJob_cells hi hcopy hc hw).bind fun w' hw' => Ensures.pure hw'

/-- The more so if there is none to build. -/
theorem settleMesh_cells (hd : w.dims.Valid) (hi : w.store.Intact)
    (hroom : ¬ Roomy w.dims c → faulty)
    (hjobs : w.workers ≠ none → ¬ Snapshot.Numbered w.dims → faulty) :
    Ensures faulty (w.settleMesh c) fun r => SameCells w r.2 := by
  unfold settleMesh
  split
  · exact Ensures.pure (SameCells.refl hi)
  · exact Ensures.ite (fun _ => generateMesh_cells hd hi hroom hjobs) fun _ =>
      Ensures.pure (SameCells.refl hi)

/-! ## Generation -/

/-- The fresh chunk of a coordinate was filled. -/
structure Refilled (w w' : World) (c : ChunkCoord) : Prop extends SameBase w w' where
  intact : w'.store.Intact
  chunk : ∃ chunk chunk', w.chunkAt? c = some chunk ∧ chunk.isFresh = true ∧
    w.populate chunk = .ok chunk' ∧ SetAt w w' c chunk'

/-- What filling a chunk makes of it. -/
structure Filling (w : World) (chunk chunk' : Chunk) : Prop where
  coord : chunk'.coord = chunk.coord
  dims : chunk'.dims = chunk.dims
  fresh : chunk'.isFresh = false
  block : ∃ blocks, w.generators.runAll chunk.coord chunk.dims chunk.blocks = .ok blocks ∧
    ∀ x y z, chunk.dims.Contains x y z → chunk'.block x y z = blocks.get x y z

/-- Filling a chunk gives it the blocks of the passes, and the sky light over them. -/
theorem populate_filling (hd : chunk.dims.Valid) (hroom : ¬ Roomy chunk.dims chunk.coord → faulty)
    (hgen : ∀ blocks e, w.generators.runAll chunk.coord chunk.dims blocks = .error e → faulty) :
    Ensures faulty (w.populate chunk) (Filling w chunk) := by
  unfold populate
  apply (Chunk.populate_ensures hgen).bind
  rintro chunk₁ ⟨hcoord, hdims, -, -, blocks, hrun, hblocks⟩
  rw [← hdims] at hd hroom
  rw [← hcoord] at hroom
  -- the passes come first; what the sky gives depends on their blocks
  apply (Light.seedSky_ensures hd hroom).bind
  intro chunk₂ hseed
  refine Ensures.pure ⟨hseed.coord.trans hcoord, hseed.dims.trans hdims, rfl, blocks, hrun, ?_⟩
  intro x y z hc
  show chunk₂.block x y z = _
  rw [hseed.block x y z (by rw [hdims]; exact hc), hblocks]

/-- Generating brings the chunk in, and fills it if it is fresh. -/
theorem generate_spec (hi : w.store.Intact) (hd : w.dims.Valid) (hfits : c.Fits)
    (hoffers : ∀ chunk, w.Offers c chunk → chunk.coord = c ∧ chunk.dims = w.dims)
    (hnew : ∀ c e, Chunk.new c w.dims = .error e → faulty) (hroom : ¬ Roomy w.dims c → faulty)
    (hgen : ∀ blocks e, w.generators.runAll c w.dims blocks = .error e → faulty) :
    Ensures faulty (w.generate c) fun r => ∃ w₁, Grew w w₁ ∧ r.2.Generated c ∧
      (r.2 = w₁ ∨ Refilled w₁ r.2 c) := by
  unfold generate
  apply (loadOrCreate_grew hi hfits hnew).bind
  rintro ⟨i, w₁⟩ ⟨hgrew, hid⟩
  simp only at hgrew hid
  rcases chunk_of_id hgrew.intact hid with ⟨chunk, hget, hc⟩
  simp only [hget]
  refine Ensures.ite (fun hfresh => ?_) fun hfresh => ?_
  · have hgenerated : w₁.Generated c := ⟨chunk, hc, by simpa using hfresh⟩
    exact Ensures.pure ⟨w₁, hgrew, hgenerated, .inl rfl⟩
  · have hfresh : chunk.isFresh = true := by simpa using hfresh
    -- the chunk is the one that was offered
    rcases hgrew.back c chunk hc with ⟨chunk₀, ho, hsame⟩
    rcases hoffers chunk₀ ho with ⟨hcoord₀, hdims₀⟩
    have hcoord : chunk.coord = c := hsame.coord.trans hcoord₀
    have hdims : chunk.dims = w.dims := hsame.dims.trans hdims₀
    have hfilling : Ensures faulty (w₁.populate chunk) (Filling w₁ chunk) := by
      apply populate_filling
      · rw [hdims]
        exact hd
      · rw [hdims, hcoord]
        exact hroom
      · rw [hdims, hcoord, hgrew.generators]
        exact hgen
    apply hfilling.and_eq_ok.bind
    rintro chunk' ⟨hfill, hpop⟩
    have hset : SetAt w₁ (w₁.withFilled c chunk') c chunk' :=
      setAt_of_store hgrew.intact hc (f := fun _ => chunk') rfl
    have hintact : (w₁.withFilled c chunk').store.Intact :=
      intact_of_store hgrew.intact hc (f := fun _ => chunk') rfl hfill.coord
    apply Ensures.pure
    rw [modify_eq_modifyAt hid]
    refine ⟨w₁, hgrew, ⟨chunk', hset.self, hfill.fresh⟩, .inr ?_⟩
    exact ⟨⟨rfl, rfl, rfl, rfl, rfl, fun hw => hw⟩, hintact, chunk, chunk', hc, hfresh, hpop, hset⟩

/-! ## After an edit -/

section Ranged

variable {W : Nat → Pos → Prop} {N A : Pos → Prop} {Good : World → Prop}
  (ranged : ∀ k, RangedVolume World faulty W N A k (fun _ _ => True) Good)

include ranged

/-- Taking light back after an edit stays within the reach of a flood. -/
theorem retractOld_ranged (h : Good w) (hp : W Light.floodReach p) :
    Ensures faulty (w.retractOld p old id) Good := by
  have hread : N p := (ranged .block).here ((ranged .block).fewer (Nat.zero_le _) hp)
  unfold retractOld
  apply ((ranged .block).light h hread).bind
  intro v _
  exact Ensures.ite (fun _ => Light.retract_ranged (ranged .block) h hp v) fun _ => Ensures.pure h

/-- Spreading the new light keeps the state, as it starts one step away at most. -/
theorem spreadNew_ranged (h : Good w) (hp : W Light.floodReach p) :
    Ensures faulty (w.spreadNew p id) Good := by
  have hone : W 1 p := (ranged .block).fewer (by decide) hp
  have hspread : W (maxLight - 1) p := (ranged .block).fewer (by decide) hp
  have hread : N p := (ranged .block).here ((ranged .block).fewer (Nat.zero_le _) hp)
  unfold spreadNew
  refine Ensures.ite (fun _ => Light.spread_ranged (ranged .block) h hspread trivial) fun _ =>
    Ensures.ite (fun _ => ?_) fun _ => Ensures.pure h
  apply (Light.refresh_ranged ranged h hone).bind
  intro w₁ h₁
  apply ((ranged .block).light h₁ hread).bind
  intro v _
  exact Ensures.ite (fun _ => Light.spread_ranged (ranged .block) h₁ hspread trivial) fun _ =>
    Ensures.pure h₁

/-- Light that follows an edit stays within reach of its column. -/
theorem afterEdit_ranged (hp : W Light.floodReach p) (hmark :
    Ensures faulty (w.markNeighborsDirty cell.chunk cell.x cell.z) fun w₁ =>
      Good w₁ ∧ ∀ y < w₁.dims.height.toNat, W Light.floodReach ⟨p.x, y, p.z⟩) :
    Ensures faulty (w.afterEdit p cell old id) Good := by
  unfold afterEdit
  apply hmark.bind
  rintro w₁ ⟨h₁, hcolumn⟩
  apply (Light.refreshColumn_ranged ranged h₁ hcolumn).bind
  intro w₂ h₂
  unfold refreshBlockLight
  apply (retractOld_ranged ranged h₂ hp).bind
  intro w₃ h₃
  exact spreadNew_ranged ranged h₃ hp

end Ranged

/-- What marking and every write keep, light that follows an edit keeps. -/
theorem afterEdit_safe {A : Pos → Prop} {Good : World → Prop}
    (safe : SafeVolume World faulty A Good) (hp : A p)
    (hmark : Ensures faulty (w.markNeighborsDirty cell.chunk cell.x cell.z) fun w₁ =>
      Good w₁ ∧ ∀ y < w₁.dims.height.toNat, A ⟨p.x, y, p.z⟩) :
    Ensures faulty (w.afterEdit p cell old id) Good :=
  afterEdit_ranged (Light.ranged_of_safe safe) hp hmark

/-- Light follows an edit, and no block changes any more. -/
theorem afterEdit_grew (h : Room faulty S w) (hi : w.store.Intact)
    (hs : p.split w.dims = .ok (some cell)) (hS : S cell.chunk) :
    Ensures faulty (w.afterEdit p cell old id) (Grew w) := by
  have hp : InChunks w.dims S p := ⟨cell, hs, hS⟩
  have hcell : w.dims.Contains cell.x cell.y cell.z := by
    rcases (Pos.split_eq_some h.valid).1 hs with ⟨rfl, hy, -⟩
    exact Pos.cell_contains h.valid hy
  apply afterEdit_safe (safeVolume h) hp
  apply (markNeighborsDirty_grew hi h.valid h.spacious hS (by omega) (by omega)).mono
  intro w₁ hw₁
  refine ⟨hw₁, fun y hy => column_inChunks h.valid hp ?_⟩
  rw [← hw₁.dims]
  exact hy

end VoxelWorld.World
