import VoxelWorld.Chunk.Basic
import VoxelWorld.Proofs.Ensures
import VoxelWorld.Proofs.Storage

/-!
# Proofs.Chunk — the cells of one chunk

* Writing a block or a level is read back at its cell and nowhere else
  (`block_putBlock`, `light_putLight`).
* `blockDiffers` and `lightDiffers` hold exactly where a write would change a cell.
* `Blank` is the state of a chunk that nobody has filled; `new_spec` gives it, and `new_isOk_iff`
  says of which sizes there are chunks.
-/

namespace VoxelWorld.Chunk

variable {c : Chunk} {x y z x' y' z' : Int} {k k' : LightKind} {v : Nat} {id : BlockId}

/-! ## Writing -/

section Frame

@[simp] theorem coord_putLight : (c.putLight x y z k v).coord = c.coord := by cases k <;> rfl

@[simp] theorem dims_putLight : (c.putLight x y z k v).dims = c.dims := by cases k <;> rfl

@[simp] theorem life_putLight : (c.putLight x y z k v).life = c.life := by cases k <;> rfl

@[simp] theorem block_putLight :
    (c.putLight x y z k v).block x' y' z' = c.block x' y' z' := by cases k <;> rfl

@[simp] theorem coord_withDirty (b : Bool) : (c.withDirty b).coord = c.coord := rfl

end Frame

/-- A block is read back where it was written, if that is a cell; elsewhere nothing changes. -/
theorem block_putBlock : (c.putBlock x y z id).block x' y' z' =
    if c.dims.Contains x y z ∧ x' = x ∧ y' = y ∧ z' = z then id else c.block x' y' z' := by
  unfold putBlock block BlockArray.get
  rw [BlockArray.get?_set]
  split <;> rfl

/-- Light of the channel that is written is held to the greatest level; the other channel is as it
was. -/
theorem light_putLight : (c.putLight x y z k v).light x' y' z' k' =
    if k' = k ∧ c.dims.Contains x y z ∧ x' = x ∧ y' = y ∧ z' = z then min v maxLight
    else c.light x' y' z' k' := by
  -- one array is written, and the other channel has an array of its own
  by_cases hk : k' = k
  · subst hk
    have hget : (c.putLight x y z k' v).light x' y' z' k' =
        (((c.lightArray k').set x y z v).get? x' y' z').getD k'.sentinel := by
      cases k' <;> rfl
    rw [hget, NibbleArray.get?_set]
    by_cases hcell : c.dims.Contains x y z ∧ x' = x ∧ y' = y ∧ z' = z
    · rw [if_pos hcell, if_pos ⟨rfl, hcell⟩]
      rfl
    · rw [if_neg hcell, if_neg fun h => hcell h.2]
      rfl
  · rw [if_neg fun h => hk h.1]
    cases k <;> cases k' <;> first | rfl | exact absurd rfl hk

/-- No cell is brighter than the greatest level. -/
theorem light_le (h : c.dims.Contains x y z) : c.light x y z k ≤ maxLight := by
  rcases NibbleArray.get?_isSome (a := c.lightArray k) h with ⟨n, hn⟩
  unfold light
  rw [hn]
  exact NibbleArray.get?_le hn

/-- Writing a level that differs is writing to a cell that holds another one. -/
theorem lightDiffers_iff :
    c.lightDiffers x y z k v = true ↔
      c.dims.Contains x y z ∧ c.light x y z k ≠ min v maxLight := by
  unfold lightDiffers light
  by_cases hc : c.dims.Contains x y z
  · rcases NibbleArray.get?_isSome (a := c.lightArray k) hc with ⟨n, hn⟩
    rw [hn, and_iff_right hc]
    simp
  · rw [NibbleArray.get?_eq_none hc]
    exact ⟨nofun, fun h => absurd h.1 hc⟩

/-- A block differs from that of a cell; outside there is nothing to differ from. -/
theorem blockDiffers_iff :
    c.blockDiffers x y z id = true ↔ c.dims.Contains x y z ∧ c.block x y z ≠ id := by
  unfold blockDiffers block BlockArray.get
  by_cases hc : c.dims.Contains x y z
  · rcases BlockArray.get?_isSome (a := c.blocks) hc with ⟨n, hn⟩
    rw [hn, and_iff_right hc]
    simp
  · rw [BlockArray.get?_eq_none hc]
    exact ⟨nofun, fun h => absurd h.1 hc⟩

/-! ## New chunks -/

/-- A chunk that nobody has filled: air without light, with all flags up and no mesh. -/
structure Blank (c : Chunk) : Prop where
  block : ∀ x y z, c.block x y z = air
  light : ∀ x y z k, c.dims.Contains x y z → c.light x y z k = 0
  life : c.life = .new

/-- A blank chunk is dirty already. -/
theorem Blank.withDirty (h : c.Blank) : (c.withDirty true).Blank := by
  refine ⟨h.block, h.light, ?_⟩
  unfold Chunk.withDirty
  rw [h.life]
  rfl

/-- A new chunk is blank, and it is the one that was asked for. -/
theorem new_spec {coord : ChunkCoord} {d : Dims} (h : Chunk.new coord d = .ok c) :
    c.coord = coord ∧ c.dims = d ∧ c.Blank := by
  unfold Chunk.new at h
  rcases Checked.bind_eq_ok.1 h with ⟨blocks, hblocks, h⟩
  rcases Checked.bind_eq_ok.1 h with ⟨sky, hsky, h⟩
  rcases Checked.bind_eq_ok.1 h with ⟨block, hblock, h⟩
  cases Checked.pure_eq_ok.1 h
  refine ⟨rfl, rfl, fun x y z => BlockArray.get_new hblocks, fun x y z k hc => ?_, rfl⟩
  unfold light
  cases k with
  | sky =>
    show (sky.get? x y z).getD _ = 0
    rw [NibbleArray.get?_new hsky hc]
    rfl
  | block =>
    show (block.get? x y z).getD _ = 0
    rw [NibbleArray.get?_new hblock hc]
    rfl

/-- Whether a new chunk can be made depends on its size alone. -/
theorem new_isOk {coord coord' : ChunkCoord} {d : Dims} (h : Chunk.new coord d = .ok c) :
    ∃ c', Chunk.new coord' d = .ok c' := by
  unfold Chunk.new at h ⊢
  rcases Checked.bind_eq_ok.1 h with ⟨blocks, hblocks, h⟩
  rcases Checked.bind_eq_ok.1 h with ⟨sky, hsky, h⟩
  rw [hblocks, hsky]
  exact ⟨_, rfl⟩

/-- There is a new chunk unless its cells are more than an array can hold. -/
theorem new_isOk_iff {coord : ChunkCoord} {d : Dims} (hz : 0 < d.z) :
    (∃ c, Chunk.new coord d = .ok c) ↔ d.cells ≤ arrayLimit := by
  constructor
  · rintro ⟨c, hnew⟩
    obtain ⟨blocks, hblocks, -⟩ := Checked.bind_eq_ok.1 hnew
    exact (BlockArray.new_isOk_iff hz).1 ⟨blocks, hblocks⟩
  · intro h
    obtain ⟨blocks, hblocks⟩ := (BlockArray.new_isOk_iff hz).2 h
    obtain ⟨light, hlight⟩ := NibbleArray.exists_new hz h
    unfold Chunk.new
    rw [hblocks, hlight]
    exact ⟨_, rfl⟩

/-- A volume that cannot be counted stops making the chunk in the same way. -/
theorem new_of_volume_error {coord : ChunkCoord} {d : Dims} {e : Fault} (h : d.volume = .error e) :
    Chunk.new coord d = .error e := by
  unfold Chunk.new BlockArray.new
  split
  · rename_i e' he
    cases h.symm.trans he
    rfl
  · rename_i n hn
    cases h.symm.trans hn

end VoxelWorld.Chunk
