import VoxelWorld.Proofs.World.Tracked

/-!
# Proofs.World.Volume — a world behaves as a volume for light

* `writeLight_ensures` is the one write of the floods: one level of the field changes, and no
  clean chunk sees it.
* `volumeLaws` are the laws of a volume for a sound world. The region is made of the cells of
  the generated chunks, and a world stays good as long as it is `Tracked` to the first one.
-/

namespace VoxelWorld

open Light (directions shift Levels)

namespace World

variable {w w₀ : World} {p : Pos} {cell : Cell} {chunk : Chunk} {k : LightKind} {v : Nat}
  {faulty : Prop} {R : ChunkCoord → Prop}

/-! ## Writing a level -/

/-- A write to a generated chunk is done only if it changes the level. -/
theorem lightTarget?_eq {id : ChunkId} (hid : w.store.idOf? cell.chunk = some id)
    (hget : w.store.get? id = some chunk) (hfresh : chunk.isFresh = false) :
    w.lightTarget? cell k v =
      if chunk.lightDiffers cell.x cell.y cell.z k v then some id else none := by
  unfold lightTarget?
  simp only [hid, hget, hfresh, Bool.not_false, Bool.true_and]

/-- The change that a write makes to a chunk. -/
def repaint (cell : Cell) (k : LightKind) (v : Nat) (c : Chunk) : Chunk :=
  (c.putLight cell.x cell.y cell.z k v).withDirty true

theorem coord_repaint (c : Chunk) : (repaint cell k v c).coord = c.coord := by
  unfold repaint
  rw [Chunk.coord_withDirty, Chunk.coord_putLight]

/-- But for a dirty mesh the state of a repainted chunk is kept. -/
theorem kept_repaint : chunk.Kept (repaint cell k v chunk) := by
  refine ⟨Chunk.dims_putLight, ?_, nofun⟩
  show { (chunk.putLight cell.x cell.y cell.z k v).life with dirty := true } = _
  rw [Chunk.life_putLight]
  rfl

theorem block_repaint (x y z : Int) : (repaint cell k v chunk).block x y z = chunk.block x y z :=
  Chunk.block_putLight

/-- A write changes one level of one cell. -/
theorem light_repaint (x y z : Int) (j : LightKind) :
    (repaint cell k v chunk).light x y z j =
      if j = k ∧ chunk.dims.Contains cell.x cell.y cell.z ∧
        x = cell.x ∧ y = cell.y ∧ z = cell.z then min v maxLight
      else chunk.light x y z j :=
  Chunk.light_putLight

theorem repaint_of_ne {x y z : Int}
    (h : ¬ (x = (cell.x : Int) ∧ y = (cell.y : Int) ∧ z = (cell.z : Int))) :
    (repaint cell k v chunk).block x y z = chunk.block x y z ∧
      ∀ j, (repaint cell k v chunk).light x y z j = chunk.light x y z j := by
  refine ⟨block_repaint x y z, fun j => ?_⟩
  rw [light_repaint, if_neg fun hc => h hc.2.2]

/-- The field after a write. -/
theorem field_repaint (h : w.Sound) (hs : p.split w.dims = .ok (some cell))
    (hc : w.chunkAt? cell.chunk = some chunk) :
    (w.modifyAt cell.chunk (repaint cell k v)).field = w.field.put k p v := by
  have hcell : chunk.dims.Contains cell.x cell.y cell.z := h.chunk_contains hs hc
  refine LightField.ext_of_sameAt fun q => ?_
  -- the written cell shows the new level in its channel; anything else shows the same
  by_cases hq : q = p
  · subst hq
    rcases field_self h hs hc with ⟨hacc, hblock, hlevel⟩
    rcases field_modifyAt_self h hs (f := repaint cell k v) hc with ⟨hacc', hblock', hlevel'⟩
    refine ⟨?_, ?_, fun j => ?_⟩
    · rw [hacc', kept_repaint.isFresh]
      exact hacc.symm
    · rw [hblock', block_repaint]
      exact hblock.symm
    · rw [hlevel', light_repaint]
      by_cases hj : j = k
      · subst hj
        rw [if_pos ⟨rfl, hcell, rfl, rfl, rfl⟩, LightField.level_put_self]
      · rw [if_neg fun hc => hj hc.1, LightField.level_put_of_ne hj, hlevel]
  · have hput := LightField.put_sameAt (f := w.field) (k := k) (v := v) hq
    exact (sameAt_modifyAt h hs hc kept_repaint (fun x y z => repaint_of_ne) hq).trans hput.symm

/-- One level is written, and no clean chunk sees it. -/
theorem writeLight_ensures (h : w.Sound) (hspace : Spacious faulty w.dims R)
    (hgen : ∀ c, w.Generated c → R c) (hp : InChunks w.dims w.Generated p) :
    Ensures faulty (w.writeLight p k v) fun r =>
      Tracked w r.2 ∧ r.2.field = w.field.put k p v := by
  rcases hp with ⟨cell, hs, chunk, hc, hfresh⟩
  rcases chunkAt?_eq_some.1 hc with ⟨id, hid, hget⟩
  have hcell : chunk.dims.Contains cell.x cell.y cell.z := h.chunk_contains hs hc
  unfold writeLight
  rw [hs]
  refine Ensures.bind_eq (a := some cell) (Ensures.ok rfl) ?_
  simp only [lightTarget?_eq hid hget hfresh]
  -- the level that is there already is not written again, and nothing is marked
  by_cases hdiff : chunk.lightDiffers cell.x cell.y cell.z k v = true
  · rw [if_pos hdiff]
    show Ensures faulty (do
      let w' ← (w.modify id (repaint cell k v)).markNeighborsDirty cell.chunk cell.x cell.z
      return (true, w')) _
    rw [modify_eq_modifyAt hid]
    refine (writeCell_ensures h hspace hs (hgen _ ⟨chunk, hc, hfresh⟩)
      coord_repaint hc hfresh kept_repaint rfl
      (fun x y z => repaint_of_ne)).bind ?_
    intro w' hw'
    rcases hw' with ⟨htracked, hfield⟩
    refine Ensures.pure ⟨htracked, ?_⟩
    rw [hfield, field_repaint h hs hc]
  · rw [if_neg hdiff]
    refine Ensures.pure ⟨Tracked.refl h, (LightField.put_eq_self ?_).symm⟩
    rw [(field_self h hs hc).2.2 k]
    by_contra hne
    exact hdiff (Chunk.lightDiffers_iff.2 ⟨hcell, hne⟩)

/-! ## The laws -/

/-- Within the width of coordinates light can always be read. -/
theorem lightAt_ne_error (hx : FitsCoord p.x) (hz : FitsCoord p.z) (hd : w.dims.Valid)
    (e : Fault) : w.lightAt p k ≠ .error e := by
  cases hs : p.split w.dims with
  | error e => exact absurd hs (Pos.split_ne_error hd hx hz e)
  | ok o =>
    cases o with
    | none =>
      unfold lightAt
      rw [hs]
      split <;> nofun
    | some cell =>
      rw [lightAt_of_split hd hs]
      nofun

/-- Blocks can be read where coordinates fit. -/
theorem blockAt_ne_error (hx : FitsCoord p.x) (hz : FitsCoord p.z) (hd : w.dims.Valid)
    (e : Fault) : w.blockAt p ≠ .error e := by
  cases hs : p.split w.dims with
  | error e => exact absurd hs (Pos.split_ne_error hd hx hz e)
  | ok o =>
    cases o with
    | none =>
      unfold blockAt
      rw [hs]
      nofun
    | some cell =>
      rw [blockAt_of_split hs]
      nofun

/-- The world says whether it accepts light where coordinates fit. -/
theorem acceptsLight_ne_error (hx : FitsCoord p.x) (hz : FitsCoord p.z) (hd : w.dims.Valid)
    (e : Fault) : w.acceptsLight p ≠ .error e := by
  cases hs : p.split w.dims with
  | error e => exact absurd hs (Pos.split_ne_error hd hx hz e)
  | ok o =>
    cases o with
    | none =>
      unfold acceptsLight
      rw [hs]
      nofun
    | some cell =>
      rw [acceptsLight_of_split hs]
      nofun

variable {d : Dims}

/-- A step from a cell of the region has coordinates, since there is room around each chunk. -/
theorem step_ensures (hd : d.Valid) (hspace : Spacious faulty d R) (hp : InChunks d R p)
    {o : Int × Int × Int} (ho : o ∈ directions) :
    Ensures faulty (Light.step p o) (· = shift p o) := by
  rcases (inChunks_iff hd).1 hp with ⟨hR, ⟨hy, hy'⟩, -⟩
  have hbound : ∀ o ∈ directions, (-1 ≤ o.1 ∧ o.1 ≤ 1) ∧ (-1 ≤ o.2.1 ∧ o.2.1 ≤ 1) ∧
      (-1 ≤ o.2.2 ∧ o.2.2 ≤ 1) := by decide
  rcases hbound o ho with ⟨hox, hoy, hoz⟩
  have hle := hd.y_le
  unfold Light.step Pos.offset
  refine (checkCoord_ensures _ fun hn => ?_).bind_eq ?_
  · exact hspace.roomy _ hR fun hroomy => hn (hroomy.fits hd hox hoz).1
  apply (checkCoord_ensures _ fun hn => absurd ⟨by omega, by omega⟩ hn).bind_eq
  refine (checkCoord_ensures _ fun hn => ?_).bind_eq ?_
  · exact hspace.roomy _ hR fun hroomy => hn (hroomy.fits hd hox hoz).2
  exact Ensures.pure rfl

/-- Cells of roomy chunks and the positions beside them are positions of the right width. -/
theorem near_fits (hd : d.Valid) (hspace : Spacious faulty d R) (hp : Near (InChunks d R) p)
    (hn : ¬ (FitsCoord p.x ∧ FitsCoord p.z)) : faulty := by
  rcases hp with hp | ⟨q, hq, o, ho, rfl⟩
  · rcases (inChunks_iff hd).1 hp with ⟨hR, -⟩
    refine hspace.roomy _ hR fun hroomy => hn ?_
    have hzero : (-1 : Int) ≤ 0 ∧ (0 : Int) ≤ 1 := by decide
    have hfits := hroomy.fits hd hzero hzero
    rwa [Int.add_zero, Int.add_zero] at hfits
  · rcases (inChunks_iff hd).1 hq with ⟨hR, -⟩
    have hbound : ∀ o ∈ directions, (-1 ≤ o.1 ∧ o.1 ≤ 1) ∧ (-1 ≤ o.2.2 ∧ o.2.2 ≤ 1) := by decide
    rcases hbound o ho with ⟨hox, hoz⟩
    exact hspace.roomy _ hR fun hroomy => hn (hroomy.fits hd hox hoz)

/-- A sound world is a volume whose region are the cells of its generated chunks. -/
theorem volumeLaws (hd : w₀.dims.Valid) (hspace : Spacious faulty w₀.dims w₀.Generated) :
    VolumeLaws World faulty (InChunks w₀.dims w₀.Generated) (Tracked w₀) where
  accepts_iff {w} h p := by
    show w.field.accepts p = true ↔ _
    rw [h.sound.accepts_iff, h.dims, h.generated_eq]
  level_le h k p := h.sound.level_le k p
  step hp ho := step_ensures hd hspace hp ho
  -- next to the region coordinates fit, or the stop is excused
  light {w p} h hp k := by
    refine Ensures.toOption fun e he => ?_
    refine near_fits hd hspace hp fun hfits => ?_
    exact lightAt_ne_error hfits.1 hfits.2 h.sound.valid e he
  block {w p} h hp := by
    refine Ensures.toOption fun e he => ?_
    refine near_fits hd hspace hp fun hfits => ?_
    exact blockAt_ne_error hfits.1 hfits.2 h.sound.valid e he
  acceptsLight {w p} h hp := by
    refine Ensures.toOption fun e he => ?_
    refine near_fits hd hspace hp fun hfits => ?_
    exact acceptsLight_ne_error hfits.1 hfits.2 h.sound.valid e he
  setLight {w p} h hp k v := by
    rw [← h.generated_eq, ← h.dims] at hp
    rw [← h.generated_eq, ← h.dims] at hspace
    show Ensures faulty (do
      let r ← w.writeLight p k v
      return r.2) _
    apply (writeLight_ensures h.sound hspace (fun _ hc => hc) hp).bind
    rintro ⟨changed, w'⟩ ⟨htracked, hfield⟩
    exact Ensures.pure ⟨h.trans htracked, hfield⟩

end World

end VoxelWorld
