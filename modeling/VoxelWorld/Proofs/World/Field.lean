import VoxelWorld.Proofs.Chunk
import VoxelWorld.Proofs.Coord
import VoxelWorld.Proofs.Light.Volume
import VoxelWorld.Proofs.Store
import VoxelWorld.World.Cells

/-!
# Proofs.World.Field — what a world shows of its chunks

* `World.Sound` is what every world without save directory keeps: the store is well formed,
  all chunks have one size that a chunk can have, and fresh chunks are blank.
* `field_of_split` and `field_of_not_split` compute the field of a world from its chunks.
* `sameAt_of_chunks` turns agreement of chunks into agreement of fields, `blockAt_of_chunks` and
  `lightAt_of_chunks` into agreement of what is read.
* Outside the generated chunks a sound world is dark up to its top (`Sound.dark`).
-/

namespace VoxelWorld

/-! ## Cells of a coordinate -/

namespace Chunk

variable {o : Option Chunk} {cell : Cell}

/-- Whether a coordinate has a generated chunk. -/
def openIn (o : Option Chunk) : Bool := o.any (!·.isFresh)

/-- The block of a cell; air where no chunk is resident. -/
def blockIn (o : Option Chunk) (cell : Cell) : BlockId :=
  (o.map fun c => c.block cell.x cell.y cell.z).getD air

/-- The light of a cell; darkness where no chunk is resident. -/
def lightIn (o : Option Chunk) (cell : Cell) (k : LightKind) : Nat :=
  (o.map fun c => c.light cell.x cell.y cell.z k).getD 0

/-- A blank chunk shows what no chunk shows. -/
theorem Blank.lightIn {c : Chunk} (h : c.Blank) (hc : c.dims.Contains cell.x cell.y cell.z)
    (k : LightKind) : Chunk.lightIn (some c) cell k = 0 := h.light _ _ _ k hc

theorem Blank.blockIn {c : Chunk} (h : c.Blank) : Chunk.blockIn (some c) cell = air :=
  h.block _ _ _

theorem Blank.isFresh {c : Chunk} (h : c.Blank) : c.isFresh = true := by
  unfold Chunk.isFresh
  rw [h.life]
  rfl

theorem Blank.isDirty {c : Chunk} (h : c.Blank) : c.isDirty = true := by
  unfold Chunk.isDirty
  rw [h.life]
  rfl

theorem Blank.isLightDirty {c : Chunk} (h : c.Blank) : c.isLightDirty = true := by
  unfold Chunk.isLightDirty
  rw [h.life]
  rfl

end Chunk

namespace World

variable {w w' : World} {p : Pos} {c : ChunkCoord} {cell : Cell} {k : LightKind}

/-- The coordinate has a generated chunk. -/
def Generated (w : World) (c : ChunkCoord) : Prop :=
  ∃ chunk, w.chunkAt? c = some chunk ∧ chunk.isFresh = false

/-- The chunk of a generated coordinate is not fresh. -/
theorem Generated.isFresh {chunk : Chunk} (h : w.Generated c) (hc : w.chunkAt? c = some chunk) :
    chunk.isFresh = false := by
  rcases h with ⟨chunk', hc', hfresh⟩
  rw [hc] at hc'
  cases hc'
  exact hfresh

/-- What can be read off a world. -/
abbrev field (w : World) : LightField := LightVolume.field w

/-- The cells of some chunks that let light through. -/
def TranslucentIn (w : World) (R : ChunkCoord → Prop) (p : Pos) : Prop :=
  InChunks w.dims R p ∧ w.registry.isTranslucent (w.field.block p) = true

/-! ## Reading -/

/-- Light is let into the generated chunks. -/
theorem openIn_eq_true : Chunk.openIn (w.chunkAt? c) = true ↔ w.Generated c := by
  unfold Chunk.openIn Generated
  cases w.chunkAt? c with
  | none => simp
  | some chunk => simp

/-- A position inside the world accepts light if its chunk is generated. -/
theorem acceptsLight_of_split (h : p.split w.dims = .ok (some cell)) :
    w.acceptsLight p = .ok (Chunk.openIn (w.chunkAt? cell.chunk)) := by
  unfold acceptsLight
  refine Checked.bind_eq_ok.2 ⟨some cell, h, ?_⟩
  simp only
  cases w.chunkAt? cell.chunk <;> rfl

/-- The block of a position is that of its cell. -/
theorem blockAt_of_split (h : p.split w.dims = .ok (some cell)) :
    w.blockAt p = .ok (Chunk.blockIn (w.chunkAt? cell.chunk) cell) := by
  unfold blockAt
  refine Checked.bind_eq_ok.2 ⟨some cell, h, ?_⟩
  simp only
  cases w.chunkAt? cell.chunk <;> rfl

/-- Below the top its light is that of its cell too. -/
theorem lightAt_of_below (hy : ¬ w.dims.height ≤ p.y) (h : p.split w.dims = .ok (some cell)) :
    w.lightAt p k = .ok (Chunk.lightIn (w.chunkAt? cell.chunk) cell k) := by
  unfold lightAt
  rw [if_neg hy]
  refine Checked.bind_eq_ok.2 ⟨some cell, h, ?_⟩
  simp only
  cases w.chunkAt? cell.chunk <;> rfl

/-- A cell is always below the top. -/
theorem lightAt_of_split (hd : w.dims.Valid) (h : p.split w.dims = .ok (some cell)) :
    w.lightAt p k = .ok (Chunk.lightIn (w.chunkAt? cell.chunk) cell k) := by
  have hy := ((Pos.split_eq_some hd).1 h).2.1
  refine lightAt_of_below ?_ h
  rw [hd.height]
  omega

/-- The field shows what the chunk of a position holds. -/
theorem field_of_split (hd : w.dims.Valid) (h : p.split w.dims = .ok (some cell)) :
    w.field.accepts p = Chunk.openIn (w.chunkAt? cell.chunk) ∧
      w.field.block p = Chunk.blockIn (w.chunkAt? cell.chunk) cell ∧
      ∀ k, w.field.level k p = Chunk.lightIn (w.chunkAt? cell.chunk) cell k := by
  refine ⟨?_, ?_, fun k => ?_⟩
  · show (w.acceptsLight p).toOption.getD false = _
    rw [acceptsLight_of_split h]
    rfl
  · show (w.blockAt p).toOption.getD air = _
    rw [blockAt_of_split h]
    rfl
  · show (w.lightAt p k).toOption.getD 0 = _
    rw [lightAt_of_split hd h]
    rfl

/-- In the cells of the world the field is what reading gives. -/
theorem lightAt_of_inChunks {R : ChunkCoord → Prop} (hd : w.dims.Valid)
    (hp : InChunks w.dims R p) : w.lightAt p k = .ok (w.field.level k p) := by
  rcases hp with ⟨cell, hs, -⟩
  rw [lightAt_of_split hd hs, (field_of_split hd hs).2.2]

/-- Within some chunks blocks can be read. -/
theorem blockAt_of_inChunks {R : ChunkCoord → Prop} (hd : w.dims.Valid)
    (hp : InChunks w.dims R p) : w.blockAt p = .ok (w.field.block p) := by
  rcases hp with ⟨cell, hs, -⟩
  rw [blockAt_of_split hs, (field_of_split hd hs).2.1]

/-- Where there is no cell there is air, no light is accepted, and only above the world is it
bright. -/
theorem field_of_not_split (h : ∀ cell, p.split w.dims ≠ .ok (some cell)) :
    w.field.accepts p = false ∧ w.field.block p = air ∧
      ∀ k, w.field.level k p = if w.dims.height ≤ p.y then k.sentinel else 0 := by
  -- above, below, or too far out to have a chunk
  have hsplit : p.split w.dims = .ok none ∨ ∃ e, p.split w.dims = .error e := by
    cases hs : p.split w.dims with
    | error e => exact .inr ⟨e, rfl⟩
    | ok o =>
      cases o with
      | none => exact .inl rfl
      | some cell => exact absurd hs (h cell)
  refine ⟨?_, ?_, fun k => ?_⟩
  · show (w.acceptsLight p).toOption.getD false = _
    unfold acceptsLight
    rcases hsplit with hs | ⟨e, hs⟩ <;> rw [hs] <;> rfl
  · show (w.blockAt p).toOption.getD air = _
    unfold blockAt
    rcases hsplit with hs | ⟨e, hs⟩ <;> rw [hs] <;> rfl
  · show (w.lightAt p k).toOption.getD 0 = _
    unfold lightAt
    by_cases hy : w.dims.height ≤ p.y
    · rw [if_pos hy, if_pos hy]
      rfl
    · rw [if_neg hy, if_neg hy]
      rcases hsplit with hs | ⟨e, hs⟩ <;> rw [hs] <;> rfl

/-- Blocks read the same where the chunks hold the same. -/
theorem blockAt_of_chunks (hdims : w'.dims = w.dims)
    (h : ∀ cell, p.split w.dims = .ok (some cell) → Chunk.blockIn (w'.chunkAt? cell.chunk) cell =
      Chunk.blockIn (w.chunkAt? cell.chunk) cell) : w'.blockAt p = w.blockAt p := by
  rcases hs : p.split w.dims with e | (_ | cell)
  · unfold blockAt
    rw [hdims, hs]
    rfl
  · unfold blockAt
    rw [hdims, hs]
    rfl
  · rw [blockAt_of_split hs, ← h cell hs]
    rw [← hdims] at hs
    exact blockAt_of_split hs

/-- Light depends only on what the chunk of the position holds. -/
theorem lightAt_of_chunks (hd : w.dims.Valid) (hdims : w'.dims = w.dims)
    (h : ∀ cell, p.split w.dims = .ok (some cell) → Chunk.lightIn (w'.chunkAt? cell.chunk) cell k =
      Chunk.lightIn (w.chunkAt? cell.chunk) cell k) : w'.lightAt p k = w.lightAt p k := by
  rcases hs : p.split w.dims with e | (_ | cell)
  · unfold lightAt
    rw [hdims, hs]
    rfl
  · unfold lightAt
    rw [hdims, hs]
    rfl
  · rw [lightAt_of_split hd hs, ← h cell hs]
    rw [← hdims] at hd hs
    exact lightAt_of_split hd hs

/-- Blocks and light read the same where the fields hold the same. -/
theorem blockAt_congr (hd : w.dims.Valid) (hdims : w'.dims = w.dims)
    (h : w'.field.block p = w.field.block p) : w'.blockAt p = w.blockAt p := by
  refine blockAt_of_chunks hdims fun cell hs => ?_
  rw [← (field_of_split hd hs).2.1, ← h]
  rw [← hdims] at hd hs
  exact (field_of_split hd hs).2.1.symm

/-- Where fields show the same level it is also read. -/
theorem lightAt_congr (hd : w.dims.Valid) (hdims : w'.dims = w.dims)
    (h : w'.field.level k p = w.field.level k p) : w'.lightAt p k = w.lightAt p k := by
  refine lightAt_of_chunks hd hdims fun cell hs => ?_
  rw [← (field_of_split hd hs).2.2, ← h]
  rw [← hdims] at hd hs
  exact ((field_of_split hd hs).2.2 k).symm

/-- Fields agree at a position if the chunks agree on its cell. -/
theorem sameAt_of_chunks (hd : w.dims.Valid) (hdims : w'.dims = w.dims)
    (h : ∀ cell, p.split w.dims = .ok (some cell) →
      Chunk.openIn (w'.chunkAt? cell.chunk) = Chunk.openIn (w.chunkAt? cell.chunk) ∧
      Chunk.blockIn (w'.chunkAt? cell.chunk) cell = Chunk.blockIn (w.chunkAt? cell.chunk) cell ∧
      ∀ k, Chunk.lightIn (w'.chunkAt? cell.chunk) cell k =
        Chunk.lightIn (w.chunkAt? cell.chunk) cell k) :
    w'.field.SameAt w.field p := by
  by_cases hs : ∃ cell, p.split w.dims = .ok (some cell)
  · rcases hs with ⟨cell, hs⟩
    rcases h cell hs with ⟨ha, hb, hl⟩
    rcases field_of_split hd hs with ⟨ha₁, hb₁, hl₁⟩
    rw [← hdims] at hs hd
    rcases field_of_split hd hs with ⟨ha₂, hb₂, hl₂⟩
    exact ⟨by rw [ha₁, ha₂, ha], by rw [hb₁, hb₂, hb], fun k => by rw [hl₁, hl₂, hl]⟩
  · have hs₁ : ∀ cell, p.split w.dims ≠ .ok (some cell) := fun cell hc => hs ⟨cell, hc⟩
    rcases field_of_not_split hs₁ with ⟨ha₁, hb₁, hl₁⟩
    rw [← hdims] at hs₁
    rcases field_of_not_split hs₁ with ⟨ha₂, hb₂, hl₂⟩
    exact ⟨by rw [ha₁, ha₂], by rw [hb₁, hb₂], fun k => by rw [hl₁, hl₂, hdims]⟩

/-! ## Sound worlds -/

/-- What a world without save directory keeps. -/
structure Sound (w : World) : Prop where
  valid : w.dims.Valid
  files : w.files = none
  store : w.store.WellFormed
  dims : ∀ c chunk, w.chunkAt? c = some chunk → chunk.dims = w.dims
  fresh : ∀ c chunk, w.chunkAt? c = some chunk → chunk.isFresh = true → chunk.Blank
  storable : ∀ c chunk, w.chunkAt? c = some chunk → ∃ new, Chunk.new c w.dims = .ok new

namespace Sound

/-- An empty world is sound if its configuration was let through. -/
theorem of_empty (hvalid : w.config.validate = .ok ()) (hfiles : w.files = none)
    (hstore : w.store = .empty) : w.Sound := by
  have hnone : ∀ c, w.chunkAt? c = none := by
    intro c
    unfold chunkAt?
    rw [hstore, ChunkStore.getAt?_empty]
  refine ⟨Dims.Valid.of_validate hvalid, hfiles, ?_, ?_, ?_, ?_⟩
  · rw [hstore]
    exact ChunkStore.wellFormed_empty
  all_goals
    intro c chunk hc
    rw [hnone] at hc
    cases hc

/-- In a sound world light is accepted in the generated chunks and nowhere else. -/
theorem accepts_iff (h : w.Sound) (p : Pos) :
    w.field.accepts p = true ↔ InChunks w.dims w.Generated p := by
  by_cases hs : ∃ cell, p.split w.dims = .ok (some cell)
  · rcases hs with ⟨cell, hs⟩
    rw [(field_of_split h.valid hs).1, openIn_eq_true]
    constructor
    · intro hgen
      exact ⟨cell, hs, hgen⟩
    · rintro ⟨cell', hs', hgen⟩
      rw [hs] at hs'
      cases hs'
      exact hgen
  · rw [(field_of_not_split fun cell hc => hs ⟨cell, hc⟩).1]
    constructor
    · nofun
    · rintro ⟨cell, hs', _⟩
      exact absurd ⟨cell, hs'⟩ hs

/-- In a sound world light enters the translucent cells of the generated chunks. -/
theorem conducts_eq (h : w.Sound) :
    w.field.Conducts w.registry = w.TranslucentIn w.Generated := by
  funext q
  unfold LightField.Conducts TranslucentIn
  rw [h.accepts_iff]

/-- The cells of the generated chunks lie below the top of the world. -/
theorem below (h : w.Sound) (hp : InChunks w.dims w.Generated p) :
    0 ≤ p.y ∧ p.y < w.dims.height := by
  rw [h.valid.height]
  exact ((inChunks_iff h.valid).1 hp).2.1

/-- The cell of a split position lies in its chunk. -/
theorem cell_contains (h : w.Sound) (hs : p.split w.dims = .ok (some cell)) :
    w.dims.Contains cell.x cell.y cell.z := by
  rcases (Pos.split_eq_some h.valid).1 hs with ⟨rfl, hy, _⟩
  exact Pos.cell_contains h.valid hy

theorem cell_lt (h : w.Sound) (hs : p.split w.dims = .ok (some cell)) :
    cell.x < w.dims.x ∧ cell.z < w.dims.z := by
  have hcell := h.cell_contains hs
  exact ⟨by omega, by omega⟩

/-- The chunk of a position holds its cell. -/
theorem chunk_contains {chunk : Chunk} (h : w.Sound) (hs : p.split w.dims = .ok (some cell))
    (hc : w.chunkAt? cell.chunk = some chunk) : chunk.dims.Contains cell.x cell.y cell.z := by
  rw [h.dims _ _ hc]
  exact h.cell_contains hs

/-- Only generated chunks hold light. -/
theorem lightIn_le (h : w.Sound) (hs : p.split w.dims = .ok (some cell)) (k : LightKind) :
    Chunk.lightIn (w.chunkAt? cell.chunk) cell k ≤ maxLight ∧
      (¬ w.Generated cell.chunk → Chunk.lightIn (w.chunkAt? cell.chunk) cell k = 0) := by
  have hcell := h.cell_contains hs
  cases hc : w.chunkAt? cell.chunk with
  | none => exact ⟨Nat.zero_le _, fun _ => rfl⟩
  | some chunk =>
    rw [← h.dims _ _ hc] at hcell
    refine ⟨Chunk.light_le hcell, fun hgen => ?_⟩
    have hfresh : chunk.isFresh = true := by
      by_contra hf
      exact hgen ⟨chunk, hc, Bool.not_eq_true _ ▸ hf⟩
    exact (h.fresh _ _ hc hfresh).lightIn hcell k

/-- No level of a sound world is above the brightest. -/
theorem level_le (h : w.Sound) (k : LightKind) (p : Pos) : w.field.level k p ≤ maxLight := by
  by_cases hs : ∃ cell, p.split w.dims = .ok (some cell)
  · rcases hs with ⟨cell, hs⟩
    rw [(field_of_split h.valid hs).2.2 k]
    exact (h.lightIn_le hs k).1
  · rw [(field_of_not_split fun cell hc => hs ⟨cell, hc⟩).2.2 k]
    split
    · cases k
      · exact le_rfl
      · exact Nat.zero_le _
    · exact Nat.zero_le _

/-- Outside the generated chunks it is dark up to the top of the world. -/
theorem dark (h : w.Sound) (hp : ¬ InChunks w.dims w.Generated p) (k : LightKind) :
    w.field.level k p = if w.dims.height ≤ p.y then k.sentinel else 0 := by
  by_cases hs : ∃ cell, p.split w.dims = .ok (some cell)
  · rcases hs with ⟨cell, hs⟩
    have hy := ((Pos.split_eq_some h.valid).1 hs).2.1
    rw [(field_of_split h.valid hs).2.2 k, h.valid.height, if_neg (by omega)]
    exact (h.lightIn_le hs k).2 fun hgen => hp ⟨cell, hs, hgen⟩
  · exact (field_of_not_split fun cell hc => hs ⟨cell, hc⟩).2.2 k

end Sound

/-! ## Changing one chunk -/

/-- The second world holds the chunk at the coordinate, and otherwise what the first one does. -/
def SetAt (w w' : World) (c : ChunkCoord) (chunk : Chunk) : Prop :=
  ∀ c', w'.chunkAt? c' = if c' = c then some chunk else w.chunkAt? c'

namespace SetAt

variable {chunk : Chunk}

theorem self (h : SetAt w w' c chunk) : w'.chunkAt? c = some chunk := by
  rw [h, if_pos rfl]

theorem other {c' : ChunkCoord} (h : SetAt w w' c chunk) (hne : c' ≠ c) :
    w'.chunkAt? c' = w.chunkAt? c' := by
  rw [h, if_neg hne]

/-- A resident chunk is the one at the coordinate or was there before. -/
theorem back {c' : ChunkCoord} {chunk' : Chunk} (h : SetAt w w' c chunk)
    (hc : w'.chunkAt? c' = some chunk') :
    c' = c ∧ chunk' = chunk ∨ c' ≠ c ∧ w.chunkAt? c' = some chunk' := by
  rw [h] at hc
  by_cases hcc : c' = c
  · rw [if_pos hcc] at hc
    cases hc
    exact .inl ⟨hcc, rfl⟩
  · rw [if_neg hcc] at hc
    exact .inr ⟨hcc, hc⟩

/-- The world stays sound if the chunk fits into it. -/
theorem sound (h : SetAt w w' c chunk) (hw : w.Sound) (hconfig : w'.dims = w.dims)
    (hfiles : w'.files = w.files) (hstore : w'.store.WellFormed) (hdims : chunk.dims = w.dims)
    (hfresh : chunk.isFresh = true → chunk.Blank)
    (hnew : ∃ new, Chunk.new c w.dims = .ok new) : w'.Sound where
  valid := by
    rw [hconfig]
    exact hw.valid
  files := hfiles.trans hw.files
  store := hstore
  dims c' chunk' hc' := by
    rw [hconfig]
    rcases h.back hc' with ⟨-, rfl⟩ | ⟨-, hold⟩
    · exact hdims
    · exact hw.dims c' chunk' hold
  -- each field asks of the chunk that was set what the world already gives of the others
  fresh c' chunk' hc' hf := by
    rcases h.back hc' with ⟨-, rfl⟩ | ⟨-, hold⟩
    · exact hfresh hf
    · exact hw.fresh c' chunk' hold hf
  storable c' chunk' hc' := by
    rw [hconfig]
    rcases h.back hc' with ⟨rfl, -⟩ | ⟨-, hold⟩
    · exact hnew
    · exact hw.storable c' chunk' hold

/-- Nothing that can be read changes if the chunk shows what was at the coordinate before. -/
theorem field_eq (h : SetAt w w' c chunk) (hw : w.Sound) (hconfig : w'.dims = w.dims)
    (hopen : Chunk.openIn (some chunk) = Chunk.openIn (w.chunkAt? c))
    (hcells : ∀ cell : Cell, w.dims.Contains cell.x cell.y cell.z →
      Chunk.blockIn (some chunk) cell = Chunk.blockIn (w.chunkAt? c) cell ∧
        ∀ k, Chunk.lightIn (some chunk) cell k = Chunk.lightIn (w.chunkAt? c) cell k) :
    w'.field = w.field := by
  refine LightField.ext_of_sameAt fun p => sameAt_of_chunks hw.valid hconfig fun cell hs => ?_
  by_cases hcc : cell.chunk = c
  · rw [hcc, h.self]
    exact ⟨hopen, hcells cell (hw.cell_contains hs)⟩
  · rw [h.other hcc]
    exact ⟨rfl, rfl, fun _ => rfl⟩

end SetAt

end World

end VoxelWorld
