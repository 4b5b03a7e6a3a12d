import VoxelWorld.Proofs.World.Steps
import VoxelWorld.Proofs.World.Updates

/-!
# Proofs.World.Archive — a world as a map of blocks

A world knows the blocks of a chunk in one of three ways: from a resident chunk, from a saved one,
or from what its generators would place. `Archived` says that all three follow one map from
positions to blocks. Nothing is asked of saved copies of generated chunks, since these will be
written again.

* `Chunk.Shows` and `Chunk.Promises` say how a generated and a fresh chunk follow a map.
* `Archived.grew`, `Archived.refilled` and `Archived.put` are the steps: only the last one changes
  the map, and in one place.
* `generate_archived`, `process_keeps` and `setBlock_archived` are the operations.
-/

namespace VoxelWorld

/-! ## Chunks -/

namespace Chunk

variable {c c' : Chunk} {gens : GeneratorSet} {m m' : Pos → BlockId}

/-- The position of a cell. -/
def place (c : Chunk) (x y z : Int) : Pos := ⟨c.coord.x * c.dims.x + x, y, c.coord.z * c.dims.z + z⟩

/-- The chunk holds the blocks of the map. -/
def Shows (c : Chunk) (m : Pos → BlockId) : Prop :=
  ∀ x y z, c.dims.Contains x y z → c.block x y z = m (c.place x y z)

/-- The chunk will hold the blocks of the map once it is generated. -/
def Promises (gens : GeneratorSet) (c : Chunk) (m : Pos → BlockId) : Prop :=
  ∀ blocks, gens.runAll c.coord c.dims c.blocks = .ok blocks →
    ∀ x y z, c.dims.Contains x y z → blocks.get x y z = m (c.place x y z)

/-- The chunk follows the map, be it generated or fresh. -/
structure Agrees (gens : GeneratorSet) (c : Chunk) (m : Pos → BlockId) : Prop where
  shows : c.isFresh = false → c.Shows m
  promises : c.isFresh = true → c.Promises gens m

/-- A chunk with the same blocks follows the same map. -/
theorem Agrees.same (h : c.Agrees gens m) (hsame : c.SameBlocks c') : c'.Agrees gens m := by
  rcases hsame with ⟨sky, light, life, rfl, hfresh, -⟩
  constructor
  · intro hf
    exact h.shows (hfresh.symm.trans hf)
  · intro hf
    exact h.promises (hfresh.symm.trans hf)

/-- Only the positions of the chunk count. -/
theorem Agrees.congr (h : c.Agrees gens m)
    (hm : ∀ x y z, c.dims.Contains x y z → m' (c.place x y z) = m (c.place x y z)) :
    c.Agrees gens m' := by
  constructor
  · intro hf x y z hc
    rw [hm x y z hc]
    exact h.shows hf x y z hc
  · intro hf blocks hrun x y z hc
    rw [hm x y z hc]
    exact h.promises hf blocks hrun x y z hc

/-- A saved chunk follows the map as the chunk did. -/
theorem Shows.saved (h : c.Shows m) : c.saved.Agrees gens m := ⟨fun _ => h, nofun⟩

/-- A cell lies in its own chunk. -/
theorem home_place (hd : c.dims.Valid) {x y z : Int} (hc : c.dims.Contains x y z) :
    (c.place x y z).home c.dims = c.coord := by
  rcases hc with ⟨hx, hy, hz, hx', hy', hz'⟩
  unfold place
  exact (Pos.home_eq_iff hd).2
    ⟨⟨by simp only; omega, by simp only; omega⟩, by simp only; omega, by simp only; omega⟩

/-- A position of the chunk has one cell. -/
theorem place_eq_iff (hd : c.dims.Valid) {p : Pos} (hhome : p.home c.dims = c.coord)
    (hy : 0 ≤ p.y) {x y z : Int} : c.place x y z = p ↔
      x = (p.cell c.dims).x ∧ y = (p.cell c.dims).y ∧ z = (p.cell c.dims).z := by
  have hx := Pos.cell_x (p := p) hd
  have hz := Pos.cell_z (p := p) hd
  rw [hhome] at hx hz
  rw [hx, hz, Pos.cell_y hy]
  unfold place
  constructor
  · rintro rfl
    exact ⟨by simp only; omega, rfl, by simp only; omega⟩
  · rintro ⟨rfl, rfl, rfl⟩
    have hxe : c.coord.x * c.dims.x + (p.x - c.coord.x * c.dims.x) = p.x := by omega
    have hze : c.coord.z * c.dims.z + (p.z - c.coord.z * c.dims.z) = p.z := by omega
    rw [hxe, hze]

/-- The position of a cell, taken apart again. -/
theorem split_place (hd : c.dims.Valid) {x y z : Int} (hc : c.dims.Contains x y z) :
    (c.place x y z).home c.dims = c.coord ∧ ((c.place x y z).cell c.dims).x = x ∧
      ((c.place x y z).cell c.dims).y = y ∧ ((c.place x y z).cell c.dims).z = z := by
  have hhome := home_place hd hc
  rcases (place_eq_iff hd hhome hc.2.1).1 rfl with ⟨hx, hy, hz⟩
  exact ⟨hhome, hx.symm, hy.symm, hz.symm⟩

end Chunk

namespace World

variable {w w' w₀ : World} {c : ChunkCoord} {chunk chunk' : Chunk} {p : Pos} {cell : Cell}
  {id : BlockId} {m m' : Pos → BlockId} {faulty : Prop} {S : ChunkCoord → Prop}

/-- The chunk can stand at a coordinate of a world, and be saved there. -/
structure Filed (w : World) (c : ChunkCoord) (chunk : Chunk) : Prop where
  fits : c.Fits
  coord : chunk.coord = c
  dims : chunk.dims = w.dims
  storable : ∃ new, Chunk.new c w.dims = .ok new

/-- What it holds has no part in where a chunk can stand. -/
theorem Filed.same (h : Filed w c chunk) (hsame : chunk.SameBlocks chunk') : Filed w c chunk' :=
  ⟨h.fits, hsame.coord.trans h.coord, hsame.dims.trans h.dims, h.storable⟩

/-- A filed chunk depends on nothing of the world but the sides. -/
theorem Filed.base (h : Filed w c chunk) (hbase : w'.dims = w.dims) : Filed w' c chunk := by
  refine ⟨h.fits, h.coord, ?_, ?_⟩
  · rw [hbase]
    exact h.dims
  · rw [hbase]
    exact h.storable

/-- Resident chunks follow the map, and so do the chunks that would come in where none is
generated. -/
structure Archived (w : World) (m : Pos → BlockId) : Prop where
  valid : w.dims.Valid
  intact : w.store.Intact
  resident : ∀ c chunk, w.chunkAt? c = some chunk → Filed w c chunk ∧ chunk.Agrees w.generators m
  absent : ∀ c chunk, c.Fits → ¬ w.Generated c → w.Brings c chunk → chunk.Agrees w.generators m

namespace Archived

/-- Whatever a world has for a coordinate follows the map. -/
theorem offers (h : w.Archived m) (ho : w.Offers c chunk) :
    Filed w c chunk ∧ chunk.Agrees w.generators m := by
  rcases ho with hc | ⟨hnone, hfits, hbrings⟩
  · exact h.resident c chunk hc
  · rcases hbrings.spec with ⟨hcoord, hdims, hnew⟩
    refine ⟨⟨hfits, hcoord, hdims, hnew⟩, h.absent c chunk hfits ?_ hbrings⟩
    rintro ⟨chunk₀, hc₀, -⟩
    rw [hnone] at hc₀
    cases hc₀

/-- The map is what is read in generated chunks. -/
theorem blockAt (h : w.Archived m) (hp : InChunks w.dims w.Generated p) :
    w.blockAt p = .ok (m p) := by
  rcases hp with ⟨cell, hs, chunk, hc, hfresh⟩
  rcases h.resident _ _ hc with ⟨hfiled, hagrees⟩
  rcases (Pos.split_eq_some h.valid).1 hs with ⟨rfl, hy, -⟩
  rw [blockAt_of_split hs, hc]
  show Except.ok (chunk.block _ _ _) = _
  have hhome : p.home chunk.dims = chunk.coord := by
    rw [hfiled.dims, hfiled.coord]
    rfl
  have hplace : chunk.place (p.cell w.dims).x (p.cell w.dims).y (p.cell w.dims).z = p := by
    rw [Chunk.place_eq_iff (by rw [hfiled.dims]; exact h.valid) hhome hy.1, hfiled.dims]
    exact ⟨rfl, rfl, rfl⟩
  rw [hagrees.shows hfresh _ _ _ (by rw [hfiled.dims]; exact Pos.cell_contains h.valid hy), hplace]

/-! ## Steps -/

/-- A world that has grown has the blocks of the same map. -/
theorem grew (h : w.Archived m) (hg : Grew w w') : w'.Archived m where
  valid := by
    rw [hg.dims]
    exact h.valid
  intact := hg.intact
  resident c chunk' hc' := by
    rcases hg.back c chunk' hc' with ⟨chunk, ho, hsame⟩
    rcases h.offers ho with ⟨hfiled, hagrees⟩
    rw [hg.generators]
    exact ⟨(hfiled.same hsame).base hg.dims, hagrees.same hsame⟩
  absent c chunk hfits hgen hbrings := by
    rw [hg.generators]
    exact h.absent c chunk hfits (fun hgen' => hgen (hg.onward.generated hgen'))
      (hg.brings.1 hbrings)

/-- One chunk was set, which is generated now; the others follow the new map if they followed the
old one. -/
theorem setAt (h : w.Archived m) (hbase : SameBase w w') (hintact : w'.store.Intact)
    (hset : SetAt w w' c chunk') (hfiled : Filed w c chunk') (hfresh : chunk'.isFresh = false)
    (hagrees : chunk'.Agrees w.generators m')
    (hother : ∀ c₁ chunk₁, c₁ ≠ c → Filed w c₁ chunk₁ → chunk₁.Agrees w.generators m →
      chunk₁.Agrees w.generators m') : w'.Archived m' where
  valid := by
    rw [hbase.dims]
    exact h.valid
  intact := hintact
  resident c₁ chunk₁ hc₁ := by
    rw [hbase.generators]
    rcases hset.back hc₁ with ⟨rfl, rfl⟩ | ⟨hne, hold⟩
    · exact ⟨hfiled.base hbase.dims, hagrees⟩
    · rcases h.resident c₁ chunk₁ hold with ⟨hfiled₁, hagrees₁⟩
      exact ⟨hfiled₁.base hbase.dims, hother c₁ chunk₁ hne hfiled₁ hagrees₁⟩
  -- the chunk that was set is generated, so what comes in is for another coordinate
  absent c₁ chunk₁ hfits hgen hbrings := by
    have hne : c₁ ≠ c := by
      rintro rfl
      exact hgen ⟨chunk', hset.self, hfresh⟩
    have hgen₁ : ¬ w.Generated c₁ := by
      rintro ⟨chunk₀, hc₀, hf₀⟩
      exact hgen ⟨chunk₀, (hset.other hne).trans hc₀, hf₀⟩
    have hbrings₁ := hbase.brings.1 hbrings
    rcases hbrings₁.spec with ⟨hcoord, hdims, hnew⟩
    rw [hbase.generators]
    exact hother c₁ chunk₁ hne ⟨hfits, hcoord, hdims, hnew⟩
      (h.absent c₁ chunk₁ hfits hgen₁ hbrings₁)

/-- A chunk that is filled holds what it promised. -/
theorem refilled (h : w.Archived m) (hr : Refilled w w' c) : w'.Archived m := by
  rcases hr.chunk with ⟨chunk, chunk', hc, hfresh, hpop, hset⟩
  rcases h.resident c chunk hc with ⟨hfiled, hagrees⟩
  have hfilling : Filling w chunk chunk' := by
    have hrun : Ensures True (w.populate chunk) (Filling w chunk) :=
      populate_filling (by rw [hfiled.dims]; exact h.valid) (fun _ => trivial) fun _ _ _ => trivial
    exact hrun.of_eq_ok hpop
  -- the passes gave the blocks that the fresh chunk had promised
  rcases hfilling.block with ⟨blocks, hrun, hblock⟩
  refine h.setAt hr.toSameBase hr.intact hset ?_ hfilling.fresh ⟨fun _ => ?_, fun hf => ?_⟩
    fun _ _ _ _ hagrees₁ => hagrees₁
  · exact ⟨hfiled.fits, hfilling.coord.trans hfiled.coord, hfilling.dims.trans hfiled.dims,
      hfiled.storable⟩
  · intro x y z hin
    rw [hfilling.dims] at hin
    have hplace : chunk'.place x y z = chunk.place x y z := by
      unfold Chunk.place
      rw [hfilling.coord, hfilling.dims]
    rw [hblock x y z hin, hplace]
    exact hagrees.promises hfresh blocks hrun x y z hin
  · rw [hfilling.fresh] at hf
    cases hf

/-- Placing a block changes the map in one place. -/
theorem put (h : w.Archived m) (hs : p.split w.dims = .ok (some cell))
    (hc : w.chunkAt? cell.chunk = some chunk) (hfresh : chunk.isFresh = false) :
    (w.modifyAt cell.chunk (rebuild cell id)).Archived (Function.update m p id) := by
  rcases h.resident _ _ hc with ⟨hfiled, hagrees⟩
  rcases (Pos.split_eq_some h.valid).1 hs with ⟨rfl, hy, -⟩
  have hd : chunk.dims.Valid := by
    rw [hfiled.dims]
    exact h.valid
  refine h.setAt (SameBase.modifyAt _) (intact_of_store h.intact hc rfl rfl)
    (setAt_of_store h.intact hc (f := rebuild _ id) rfl) ⟨hfiled.fits, hfiled.coord, hfiled.dims,
      hfiled.storable⟩ hfresh ⟨fun _ => ?_, fun hf => ?_⟩ ?_
  · intro x y z hin
    show (chunk.putBlock _ _ _ id).block x y z = Function.update m p id (chunk.place x y z)
    have hcells : chunk.dims.Contains (p.cell w.dims).x (p.cell w.dims).y (p.cell w.dims).z := by
      rw [hfiled.dims]
      exact Pos.cell_contains h.valid hy
    have hhome : p.home chunk.dims = chunk.coord := by
      rw [hfiled.dims, hfiled.coord]
      rfl
    have hplace := Chunk.place_eq_iff hd hhome hy.1 (x := x) (y := y) (z := z)
    rw [hfiled.dims] at hplace
    rw [Chunk.block_putBlock]
    -- the cell that was written is the one of the position
    by_cases hcell : chunk.place x y z = p
    · rw [hcell, Function.update_self, if_pos ⟨hcells, hplace.1 hcell⟩]
    · rw [Function.update_of_ne hcell, if_neg fun hin' => hcell (hplace.2 hin'.2)]
      exact hagrees.shows hfresh x y z hin
  · have hf' : chunk.isFresh = true := hf
    rw [hfresh] at hf'
    cases hf'
  · intro c₁ chunk₁ hne hfiled₁ hagrees₁
    refine hagrees₁.congr fun x y z hin => Function.update_of_ne ?_ _ _
    intro hcell
    apply hne
    have hhome := Chunk.home_place (by rw [hfiled₁.dims]; exact h.valid) hin
    rw [hcell, hfiled₁.dims, hfiled₁.coord] at hhome
    exact hhome.symm

end Archived

/-! ## Operations -/

/-- The chunk and the eight around it are generated, and its light was spread. -/
structure Finished (w : World) (c : ChunkCoord) : Prop where
  surrounded : w.Surrounded c
  spread : w.LightSpread c

/-- A finished chunk stays finished. -/
theorem Onward.finished (h : Onward w w') (hc : w.Finished c) : w'.Finished c where
  surrounded := ⟨h.generated hc.surrounded.1, fun o ho => h.generated (hc.surrounded.2 o ho)⟩
  spread chunk' hchunk' _ := by
    rcases hc.surrounded.1 with ⟨chunk, hchunk, hf⟩
    rcases h.kept c chunk hchunk hf with ⟨chunk'', hchunk'', -, hl⟩
    rw [hchunk''] at hchunk'
    cases hchunk'
    exact hl (hc.spread chunk hchunk hf)

/-- The light of a finished chunk is left alone. -/
theorem settleLight_of_finished (hc : w.Finished c) : w.settleLight c = .ok (false, w) := by
  rcases hc.surrounded.1 with ⟨chunk, hchunk, hfresh⟩
  unfold settleLight
  simp only [hchunk, hc.spread chunk hchunk hfresh, Bool.false_eq_true, if_false]
  rfl

/-- Setting a chunk of `S` leaves room. -/
theorem Room.setAt (h : Room faulty S w) (hbase : SameBase w w') (hset : SetAt w w' c chunk')
    (hS : S c) : Room faulty S w' where
  valid := by
    rw [hbase.dims]
    exact h.valid
  spacious := by
    rw [hbase.dims]
    exact h.spacious
  inside c₁ chunk₁ ho hfresh := by
    rcases ho with hc₁ | ⟨hnone, hfits, hbrings⟩
    · rcases hset.back hc₁ with ⟨rfl, -⟩ | ⟨-, hold⟩
      · exact hS
      · exact h.inside c₁ chunk₁ (.inl hold) hfresh
    · -- what would still come in is not what came in
      have hne : c₁ ≠ c := by
        rintro rfl
        rw [hset.self] at hnone
        cases hnone
      rw [hset.other hne] at hnone
      exact h.inside c₁ chunk₁ (.inr ⟨hnone, hfits, hbase.brings.1 hbrings⟩) hfresh

/-- Filling a chunk for which there is room leaves room. -/
theorem Room.refilled (h : Room faulty S w) (hr : Refilled w w' c) (hS : S c) :
    Room faulty S w' := by
  rcases hr.chunk with ⟨chunk, chunk', -, -, -, hset⟩
  exact h.setAt hr.toSameBase hset hS

/-- A filled chunk was fresh, so that nothing that was generated is undone. -/
theorem Refilled.onward (hr : Refilled w w' c) : Onward w w' := by
  rcases hr.chunk with ⟨chunk, chunk', hc, hfresh, -, hset⟩
  refine Onward.of_setAt hr.toSameBase hset hc fun hf => ?_
  rw [hfresh] at hf
  cases hf

/-- Generating a chunk changes no block. -/
theorem generate_archived (h : w.Archived m) (hroom : Room faulty S w) (hS : S c) (hfits : c.Fits)
    (hgen : ∀ blocks e, w.generators.runAll c w.dims blocks = .error e → faulty) :
    Ensures faulty (w.generate c) fun r =>
      r.2.Archived m ∧ Room faulty S r.2 ∧ Onward w r.2 ∧ r.2.Generated c := by
  apply (generate_spec h.intact h.valid hfits (fun chunk ho => ?_) hroom.spacious.storable
    (hroom.spacious.roomy c hS) hgen).mono
  · rintro r ⟨w₁, hgrew, hgenerated, hsame | hrefilled⟩
    · rw [hsame] at hgenerated ⊢
      exact ⟨h.grew hgrew, hroom.grew hgrew, hgrew.onward, hgenerated⟩
    · exact ⟨(h.grew hgrew).refilled hrefilled, (hroom.grew hgrew).refilled hrefilled hS,
        hgrew.onward.trans hrefilled.onward, hgenerated⟩
  · rcases h.offers ho with ⟨hfiled, -⟩
    exact ⟨hfiled.coord, hfiled.dims⟩

/-- A generation that may stop anywhere. -/
theorem generate_keeps (h : w.Archived m) (hfits : c.Fits) :
    Ensures True (w.generate c) fun r => r.2.Archived m ∧ Onward w r.2 ∧ r.2.Generated c := by
  apply (generate_archived h (Room.anywhere h.valid) trivial hfits fun _ _ _ => trivial).mono
  intro r hr
  exact ⟨hr.1, hr.2.2⟩

/-- Generating the eight chunks around one keeps the archive. -/
theorem generateNeighbors_keeps (h : w.Archived m) :
    Ensures True (w.generateNeighbors c) fun r => r.2.Archived m ∧ Onward w r.2 ∧
      ∀ o ∈ neighborOffsets, r.2.Generated (c.beside o) := by
  unfold generateNeighbors
  refine Ensures.foldlM_all (s := (false, w)) (G := fun s : Bool × World => s.2.Archived m)
    (T := fun s t => Onward s.2 t.2) (P := fun o s => s.2.Generated (c.beside o))
    (fun s => Onward.refl) (fun s t u hst htu => hst.trans htu)
    (fun o s t hst hgen => hst.generated hgen) ?_ h
  rintro ⟨dx, dz⟩ ⟨worked, w₁⟩ - h₁
  refine Ensures.bind (P := fun c' => c.offset dx dz = .ok c')
    (Ensures.intro (fun _ hc' => hc') fun _ _ => trivial) fun c' hc' => ?_
  apply (generate_keeps h₁ (offset_fits hc')).bind
  rintro ⟨did, w₂⟩ ⟨h₂, honward, hgen⟩
  rw [ChunkCoord.offset_eq_ok hc'] at hgen
  exact Ensures.pure ⟨h₂, honward, hgen⟩

/-- Spreading light keeps the archive. -/
theorem updateLight_keeps (h : w.Archived m) :
    Ensures True (w.updateLight c) fun r => r.2.Archived m ∧ Onward w r.2 := by
  apply (updateLight_grew (Room.anywhere h.valid) h.intact).mono
  rintro r ⟨hgrew, -⟩
  exact ⟨h.grew hgrew, hgrew.onward⟩

/-- Making a chunk ready does not change the map. -/
theorem process_keeps (h : w.Archived m) (hfits : c.Fits) :
    Ensures True (w.process c) fun r => r.2.Archived m ∧ Onward w r.2 ∧ r.2.Finished c := by
  unfold process
  apply (generate_keeps h hfits).bind
  rintro ⟨own, w₁⟩ ⟨h₁, honward₁, hgen⟩
  apply (generateNeighbors_keeps h₁).bind
  rintro ⟨around, w₂⟩ ⟨h₂, honward₂, haround⟩
  apply (settleLight_grew (Room.anywhere h₂.valid) h₂.intact).bind
  rintro ⟨lit, w₃⟩ ⟨hgrew₃, hspread⟩
  have h₃ := h₂.grew hgrew₃
  -- the neighbours are there and the light is spread, and building a mesh changes neither
  have hfinished : w₃.Finished c := by
    refine ⟨⟨hgrew₃.onward.generated (honward₂.generated hgen), fun o ho => ?_⟩, hspread⟩
    exact hgrew₃.onward.generated (haround o ho)
  apply (settleMesh_cells h₃.valid h₃.intact (fun _ => trivial) fun _ _ => trivial).bind
  rintro ⟨meshed, w₄⟩ hcells₄
  have hgrew₄ := hcells₄.toGrew
  exact Ensures.pure ⟨h₃.grew hgrew₄,
    ((honward₁.trans honward₂).trans hgrew₃.onward).trans hgrew₄.onward,
    hgrew₄.onward.finished hfinished⟩

/-- Placing a block tells whether the map changed, and changes it. -/
theorem setBlock_archived (h : w.Archived m) (hroom : Room faulty S w)
    (hx : FitsCoord p.x) (hz : FitsCoord p.z) (hS : S (p.home w.dims))
    (hgen : ∀ blocks e, w.generators.runAll (p.home w.dims) w.dims blocks = .error e → faulty) :
    Ensures faulty (w.setBlock p id) fun r =>
      (r.1 = true ↔ (0 ≤ p.y ∧ p.y < w.dims.y) ∧ id ≠ m p) ∧ Onward w r.2 ∧
        r.2.Archived (if r.1 then Function.update m p id else m) := by
  have hd := h.valid
  refine setBlock_ensures (P := fun w₁ => w₁.Archived m ∧ Room faulty S w₁ ∧ Onward w w₁)
    (fun e he => absurd he (Pos.split_ne_error hd hx hz e)) ?_ ?_ ?_ ?_
  · -- outside the height of the world nothing is placed
    intro hnone
    refine ⟨⟨nofun, fun hin => ?_⟩, Onward.refl, h⟩
    have hsome : p.split w.dims = .ok (some (p.cell w.dims)) := (Pos.split_eq_some hd).2
      ⟨rfl, hin.1, Pos.fits_ediv hd.x_pos hx, Pos.fits_ediv hd.z_pos hz⟩
    rw [hnone] at hsome
    cases hsome
  · intro cell hs
    rcases (Pos.split_eq_some hd).1 hs with ⟨rfl, -, hfits⟩
    apply (generate_archived h hroom hS hfits hgen).mono
    rintro r ⟨harch, hroom₁, honward, hgenerated⟩
    exact ⟨⟨harch, hroom₁, honward⟩, hgenerated⟩
  · -- the block is there already
    rintro cell w₁ chunk hs ⟨harch, -, honward⟩ hc hfresh hdiff
    refine ⟨⟨nofun, fun hin => absurd ?_ hin.2⟩, honward, harch⟩
    rw [← honward.dims] at hs
    have hread := harch.blockAt ⟨cell, hs, chunk, hc, hfresh⟩
    rw [blockAt_of_split hs, hc] at hread
    have hblock : chunk.block cell.x cell.y cell.z = m p := Except.ok.inj hread
    by_contra hne
    refine hdiff (Chunk.blockDiffers_iff.2 ⟨?_, fun heq => hne ?_⟩)
    · rw [(harch.resident _ _ hc).1.dims]
      rcases (Pos.split_eq_some harch.valid).1 hs with ⟨rfl, hy, -⟩
      exact Pos.cell_contains harch.valid hy
    · rw [← hblock, heq]
  · rintro cell w₁ chunk hs ⟨harch, hroom₁, honward⟩ hc hfresh hne
    have hs₁ := hs
    rw [← honward.dims] at hs₁
    -- the block goes in first, and all that follows only grows the world
    have hput : (w₁.modifyAt cell.chunk (rebuild cell id)).Archived (Function.update m p id) :=
      harch.put hs₁ hc hfresh
    have hS₁ : S cell.chunk := hroom₁.inside _ chunk (.inl hc) hfresh
    have hroom₂ : Room faulty S (w₁.modifyAt cell.chunk (rebuild cell id)) :=
      hroom₁.setAt (SameBase.modifyAt _) (setAt_of_store harch.intact hc rfl) hS₁
    have hwritten : Onward w₁ (w₁.modifyAt cell.chunk (rebuild cell id)) :=
      Onward.of_setAt (SameBase.modifyAt _) (setAt_of_store harch.intact hc rfl) hc
        fun hf => ⟨hf, fun hl => hl⟩
    have hafter : Ensures faulty ((w₁.modifyAt cell.chunk (rebuild cell id)).afterEdit p cell
        (chunk.block cell.x cell.y cell.z) id) (Grew (w₁.modifyAt cell.chunk (rebuild cell id))) :=
      afterEdit_grew hroom₂ hput.intact hs₁ hS₁
    apply hafter.mono
    intro w' hgrew
    refine ⟨⟨fun _ => ⟨?_, fun heq => hne ?_⟩, fun _ => rfl⟩,
      (honward.trans hwritten).trans hgrew.onward, hput.grew hgrew⟩
    · exact ((Pos.split_eq_some hd).1 hs).2.1
    · have hread := harch.blockAt ⟨cell, hs₁, chunk, hc, hfresh⟩
      rw [blockAt_of_split hs₁, hc] at hread
      rw [heq]
      exact Except.ok.inj hread

end World

end VoxelWorld
