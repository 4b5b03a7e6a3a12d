import VoxelWorld.Proofs.Light.Glow
import VoxelWorld.Proofs.Light.Sky
import VoxelWorld.Proofs.World.Generate
import VoxelWorld.Proofs.World.Volume
import VoxelWorld.World.Edit

/-!
# Proofs.World.Edit — what placing a block does

* `retractOld_ensures` and `spreadNew_ensures` are the two steps by which block light follows
  an edit.
* `afterEdit_ensures` puts an edit together: one block changes, sky light goes through the
  column of the cell, and block light through the two steps; no clean chunk sees any of it
  (`Edited`).
* `setBlock_ensures` adds what comes before: the chunk is generated if it was not, and nothing
  is written if the block is there already.
-/

namespace VoxelWorld

open Light (Levels Swept OldRetracted NewSpread)

namespace World

variable {w w₀ w' : World} {p : Pos} {cell : Cell} {chunk : Chunk} {id old : BlockId}
  {faulty : Prop} {f : LightField} {L : Levels}

/-! ## The block -/

/-- The change that an edit makes to a chunk. -/
def rebuild (cell : Cell) (id : BlockId) (c : Chunk) : Chunk :=
  (c.putBlock cell.x cell.y cell.z id).withDirty true

theorem kept_rebuild : chunk.Kept (rebuild cell id chunk) := ⟨rfl, rfl, nofun⟩

theorem rebuild_of_ne {x y z : Int}
    (h : ¬ (x = (cell.x : Int) ∧ y = (cell.y : Int) ∧ z = (cell.z : Int))) :
    (rebuild cell id chunk).block x y z = chunk.block x y z ∧
      ∀ k, (rebuild cell id chunk).light x y z k = chunk.light x y z k := by
  refine ⟨?_, fun k => rfl⟩
  show (chunk.putBlock cell.x cell.y cell.z id).block x y z = _
  rw [Chunk.block_putBlock, if_neg fun hc => h hc.2]

/-- The field has the new block, and all else as it was. -/
theorem field_rebuild (h : w.Sound) (hs : p.split w.dims = .ok (some cell))
    (hc : w.chunkAt? cell.chunk = some chunk) :
    (w.modifyAt cell.chunk (rebuild cell id)).field = w.field.withBlock p id := by
  have hcell : chunk.dims.Contains cell.x cell.y cell.z := h.chunk_contains hs hc
  refine LightField.ext_of_sameAt fun q => ?_
  -- only the block of the one cell differs
  by_cases hq : q = p
  · subst hq
    rcases field_self h hs hc with ⟨hacc, hblock, hlevel⟩
    rcases field_modifyAt_self h hs (f := rebuild cell id) hc with ⟨hacc', hblock', hlevel'⟩
    refine ⟨?_, ?_, fun k => ?_⟩
    · rw [hacc']
      exact hacc.symm
    · rw [hblock', LightField.block_withBlock_self]
      show (chunk.putBlock cell.x cell.y cell.z id).block cell.x cell.y cell.z = id
      rw [Chunk.block_putBlock, if_pos ⟨hcell, rfl, rfl, rfl⟩]
    · rw [hlevel']
      exact (hlevel k).symm
  · have hsame : (w.modifyAt cell.chunk (rebuild cell id)).field.SameAt w.field q :=
      sameAt_modifyAt h hs hc kept_rebuild (fun x y z => rebuild_of_ne) hq
    exact ⟨hsame.accepts, hsame.block.trans (LightField.block_withBlock_of_ne hq).symm,
      hsame.level⟩

/-! ## Block light -/

section BlockLight

variable (hd : w₀.dims.Valid) (hspace : Spacious faulty w₀.dims w₀.Generated)

include hd hspace

/-- First the light of the cell is taken back, if the old block gave it off or the new one stops it.
-/
theorem retractOld_ensures (hshow : Shows (Tracked w₀) f .block w L)
    (hp : InChunks w₀.dims w₀.Generated p) :
    Ensures faulty (w.retractOld p old id) fun w' => ∃ L',
      Shows (Tracked w₀) f .block w' L' ∧
      OldRetracted (InChunks w₀.dims w₀.Generated) (f.Conducts w₀.registry) L p
        (0 < w₀.registry.luminance old ∨ w₀.registry.isTranslucent id = false) L' := by
  have laws := volumeLaws hd hspace
  have hreg := hshow.good.registry
  have hreason : ((L p > 0 && (w₀.registry.luminance old > 0 ||
      !w₀.registry.isTranslucent id)) = true) ↔
      0 < L p ∧ (0 < w₀.registry.luminance old ∨ w₀.registry.isTranslucent id = false) := by
    simp
  unfold retractOld
  rw [hreg]
  apply (hshow.light laws (Near.inside hp)).bind_eq
  -- nothing is taken back from a dark cell, nor if the old block was dark and the new one clear
  refine Ensures.ite (fun hyes => ?_) fun hno => ?_
  · rcases hreason.1 hyes with ⟨hpos, hr⟩
    apply (Light.retract_ensures laws hshow hp hpos (hshow.level_le laws p)).mono
    intro w' hw'
    rcases hw' with ⟨L', hshow', hret⟩
    exact ⟨L', hshow', .inl ⟨hpos, hr, hret⟩⟩
  · refine Ensures.pure ⟨L, hshow, .inr ⟨?_, rfl⟩⟩
    by_contra hne
    exact hno (hreason.2 ⟨by omega, by
      by_contra hr
      exact hne (.inr hr)⟩)

/-- The new block spreads its own light, or lets that around it in. -/
theorem spreadNew_ensures (hshow : Shows (Tracked w₀) f .block w L)
    (hp : InChunks w₀.dims w₀.Generated p) (hblock : f.block p = id) :
    Ensures faulty (w.spreadNew p id) fun w' => ∃ L',
      Shows (Tracked w₀) f .block w' L' ∧
      NewSpread (InChunks w₀.dims w₀.Generated) (f.Conducts w₀.registry) L p
        (w₀.registry.luminance id) L' := by
  have laws := volumeLaws hd hspace
  have hreg := hshow.good.registry
  have hacc := (hshow.accepts_iff laws p).2 hp
  unfold spreadNew
  rw [hreg]
  refine Ensures.ite (fun hpos => ?_) fun hzero => ?_
  · -- brighter light than there can be counts as the brightest
    have hmin : Light.spread w₀.registry w p .block (w₀.registry.luminance id) =
        Light.spread w₀.registry w p .block (min (w₀.registry.luminance id) maxLight) := by
      unfold Light.spread
      rw [Nat.min_assoc, Nat.min_self]
    have hpos' : 0 < min (w₀.registry.luminance id) maxLight := by
      unfold maxLight
      omega
    rw [hmin]
    apply (Light.spread_ensures laws hshow hp hpos' (Nat.min_le_right _ _)).mono
    intro w' hw'
    rcases hw' with ⟨L', hshow', hspread⟩
    exact ⟨L', hshow', .source hpos hspread⟩
  · have hnone : w₀.registry.luminance id = 0 := by omega
    -- a dark block takes the light of its neighbours and passes it on, unless it stops light
    refine Ensures.ite (fun htr => ?_) fun htr => ?_
    · have hC : f.Conducts w₀.registry p := ⟨hacc, by rw [hblock]; exact htr⟩
      apply (Light.refresh_ensures laws hshow hp).bind
      intro w₁ hw₁
      rcases hw₁ with ⟨v, hv, hshow₁, href⟩
      apply (hshow₁.light laws (Near.inside hp)).bind_eq
      rw [Function.update_self]
      refine Ensures.ite (fun hpos => ?_) fun hz => ?_
      · apply (Light.spread_ensures laws hshow₁ hp hpos hv).mono
        intro w' hw'
        rcases hw' with ⟨L', hshow', hspread⟩
        refine ⟨L', hshow', .through hnone hC hpos href (hspread.congr fun q hq => ?_)⟩
        rw [Function.update_of_ne hq]
      · have hv0 : v = 0 := by omega
        subst hv0
        have hLp : L p = 0 := Nat.le_zero.1 (href.own hC)
        refine Ensures.pure ⟨L, ?_, .dark hnone hC href hLp⟩
        rwa [← hLp, Function.update_eq_self] at hshow₁
    · refine Ensures.pure ⟨L, hshow, .closed hnone fun hC => htr ?_⟩
      rw [← hblock]
      exact hC.2

end BlockLight

/-! ## An edit -/

/-- The column of a cell lies in its chunk. -/
theorem column_inChunks {d : Dims} {R : ChunkCoord → Prop} (hd : d.Valid) (hp : InChunks d R p)
    {y : Nat} (hy : y < d.height.toNat) : InChunks d R ⟨p.x, y, p.z⟩ := by
  rcases (inChunks_iff hd).1 hp with ⟨hR, -, hfits⟩
  have hh := hd.height
  exact (inChunks_iff hd).2 ⟨hR, ⟨by simp only; omega, by simp only; omega⟩, hfits⟩

/-- What an edit of a generated cell does. -/
structure Edited (w w' : World) (p : Pos) (id : BlockId) : Prop where
  tracked : Tracked w w'
  accepts : w'.field.accepts = w.field.accepts
  block : w'.field.block = Function.update w.field.block p id
  sky : Swept w.registry (w.field.withBlock p id) (InChunks w.dims w.Generated) w.dims.height p.x
    p.z (w.field.level .sky) 0 (w'.field.level .sky)
  blockLight : ∃ L, (∀ q, L q ≤ maxLight) ∧ OldRetracted (InChunks w.dims w.Generated)
      ((w.field.withBlock p id).Conducts w.registry) (w.field.level .block) p
      (0 < w.registry.luminance (w.field.block p) ∨ w.registry.isTranslucent id = false) L ∧
    NewSpread (InChunks w.dims w.Generated) ((w.field.withBlock p id).Conducts w.registry) L p
      (w.registry.luminance id) (w'.field.level .block)

namespace Edited

variable {q : Pos}

theorem block_self (he : Edited w w' p id) : w'.field.block p = id := by
  rw [he.block, Function.update_self]

theorem block_of_ne (he : Edited w w' p id) (hq : q ≠ p) :
    w'.field.block q = w.field.block q := by
  rw [he.block, Function.update_of_ne hq]

/-- A block that gives off light starts with just that. -/
theorem level_self (he : Edited w w' p id) (hpos : 0 < w.registry.luminance id) :
    w'.field.level .block p = min (w.registry.luminance id) maxLight := by
  rcases he.blockLight with ⟨M, -, -, hnew⟩
  exact hnew.eq_self hpos

/-- The translucent cells beside it have at most one level less. -/
theorem le_level_beside (he : Edited w w' p id) (hpos : 0 < w.registry.luminance id)
    (hadj : Light.Adjacent p q) (hq : w.field.Conducts w.registry q) :
    min (w.registry.luminance id) maxLight ≤ w'.field.level .block q + 1 := by
  rcases he.blockLight with ⟨M, -, -, hnew⟩
  rw [← hnew.eq_self hpos]
  exact (hnew.even_self hpos).le hadj ((LightField.conducts_withBlock_of_ne hadj.ne.symm).2 hq)

end Edited

/-- With the block in place the light follows, sky light first. -/
theorem afterEdit_ensures (h : w.Sound) (hspace : Spacious faulty w.dims w.Generated)
    (hs : p.split w.dims = .ok (some cell)) (hc : w.chunkAt? cell.chunk = some chunk)
    (hfresh : chunk.isFresh = false) :
    Ensures faulty ((w.modifyAt cell.chunk (rebuild cell id)).afterEdit p cell
      (chunk.block cell.x cell.y cell.z) id) fun w' => Edited w w' p id := by
  have hgen : w.Generated cell.chunk := ⟨chunk, hc, hfresh⟩
  have hp : InChunks w.dims w.Generated p := ⟨cell, hs, hgen⟩
  have laws := volumeLaws h.valid hspace
  have hold : chunk.block cell.x cell.y cell.z = w.field.block p :=
    (field_self h hs hc).2.1.symm
  unfold afterEdit
  -- the block is written and the chunks that see it are marked
  refine (writeCell_ensures (f := rebuild cell id) h hspace hs hgen (fun _ => rfl) hc hfresh
    kept_rebuild rfl (fun x y z => rebuild_of_ne)).bind fun w₁ hw₁ => ?_
  rcases hw₁ with ⟨htracked₁, hfield₁⟩
  rw [field_rebuild h hs hc] at hfield₁
  have hshow₁ : Shows (Tracked w) (w.field.withBlock p id) .sky w₁ (w.field.level .sky) :=
    Shows.of_field_eq htracked₁ hfield₁
  -- then sky light goes down the column
  have hheight : LightVolume.height w₁ = w.dims.height := by
    show w₁.dims.height = _
    rw [htracked₁.dims]
  rw [htracked₁.registry]
  refine (Light.refreshColumn_ensures laws hshow₁ fun y hy => ?_).bind fun w₂ hw₂ => ?_
  · rw [hheight] at hy
    exact column_inChunks h.valid hp hy
  rw [hheight] at hw₂
  rcases hw₂ with ⟨Ls, hshow₂, hswept⟩
  -- and block light follows
  have hshow₂' : Shows (Tracked w) ((w.field.withBlock p id).withLevels .sky Ls) .block w₂
      (w.field.level .block) := hshow₂.other (by decide)
  have hblock : ((w.field.withBlock p id).withLevels .sky Ls).block p = id :=
    LightField.block_withBlock_self
  unfold refreshBlockLight
  rw [hold]
  apply (retractOld_ensures h.valid hspace hshow₂' hp).bind
  intro w₃ hw₃
  rcases hw₃ with ⟨L₃, hshow₃, hold₃⟩
  apply (spreadNew_ensures h.valid hspace hshow₃ hp hblock).mono
  intro w₄ hw₄
  rcases hw₄ with ⟨L₄, hshow₄, hnew₄⟩
  have hfield₄ : w₄.field =
      ((w.field.withBlock p id).withLevels .sky Ls).withLevels .block L₄ := hshow₄.field_eq
  refine ⟨hshow₄.good, ?_, ?_, ?_, L₃, hshow₃.level_le laws, hold₃, ?_⟩
  · rw [hfield₄]
    rfl
  · rw [hfield₄]
    rfl
  · rw [hfield₄, LightField.level_withLevels_of_ne _ _ (by decide), LightField.level_withLevels]
    exact hswept
  · rw [hfield₄, LightField.level_withLevels]
    exact hnew₄

/-! ## Placing a block -/

/-- Placing a block does nothing outside the world; otherwise the chunk is generated first, and
then the block is there already or there is an edit. -/
theorem setBlock_ensures {P : World → Prop} {Q : Bool × World → Prop}
    (herror : ∀ e, p.split w.dims = .error e → faulty)
    (hout : p.split w.dims = .ok none → Q (false, w))
    (hgenerate : ∀ cell, p.split w.dims = .ok (some cell) →
      Ensures faulty (w.generate cell.chunk) fun r => P r.2 ∧ r.2.Generated cell.chunk)
    (hsame : ∀ cell w₁ chunk, p.split w.dims = .ok (some cell) → P w₁ →
      w₁.chunkAt? cell.chunk = some chunk → chunk.isFresh = false →
      ¬ chunk.blockDiffers cell.x cell.y cell.z id = true → Q (false, w₁))
    (hedit : ∀ cell w₁ chunk, p.split w.dims = .ok (some cell) → P w₁ →
      w₁.chunkAt? cell.chunk = some chunk → chunk.isFresh = false →
      chunk.block cell.x cell.y cell.z ≠ id →
      Ensures faulty ((w₁.modifyAt cell.chunk (rebuild cell id)).afterEdit p cell
        (chunk.block cell.x cell.y cell.z) id) fun w' => Q (true, w')) :
    Ensures faulty (w.setBlock p id) Q := by
  unfold setBlock
  cases hs : p.split w.dims with
  | error e => exact herror e hs
  | ok o =>
    cases o with
    | none => exact Ensures.ok (hout hs)
    | some cell =>
      refine Ensures.bind_eq (a := some cell) (Ensures.ok rfl) ?_
      apply (hgenerate cell hs).bind
      intro r hr
      rcases r with ⟨worked, w₁⟩
      rcases hr with ⟨hP, chunk, hc, hfresh⟩
      simp only at hP hc
      simp only [hc]
      -- the block that is there already is not placed again
      by_cases hdiff : chunk.blockDiffers cell.x cell.y cell.z id = true
      · simp only [hdiff, Bool.not_true, Bool.false_eq_true, if_false]
        refine (hedit cell w₁ chunk hs hP hc hfresh ?_).bind fun w' hw' => Ensures.pure hw'
        exact (Chunk.blockDiffers_iff.1 hdiff).2
      · simp only [hdiff, Bool.not_false, if_true]
        exact Ensures.pure (hsame cell w₁ chunk hs hP hc hfresh hdiff)

end World

end VoxelWorld
