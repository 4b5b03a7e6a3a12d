import VoxelWorld.Proofs.Chunk
import VoxelWorld.Proofs.Coord
import VoxelWorld.Proofs.Light.Sky

/-!
# Proofs.Light.Seed — the sky light of a new chunk

A chunk on its own is a volume, and seeding lights it column by column.

* `ChunkVolume.volumeLaws` shows that the volume behaves; `ChunkVolume.lawsOf` does so for chunks of
  any sides.
* `Lighter` is what holds between the volumes of the loops: a level stays, or becomes what the
  sky gives. So a cell that is done stays done (`Lighter.lit`).
* `seedSky_ensures` says that seeding gives each cell what the sky gives to it, and leaves
  blocks, block light and flags alone.
-/

namespace VoxelWorld

namespace LightField

variable {reg : Registry} {f g : LightField} {h : Int} {p q : Pos}

/-- What the sky gives depends on the blocks of the column above alone. -/
theorem skylight_congr (hy : p.y = q.y)
    (hblock : ∀ y, p.y ≤ y → y < h → f.block ⟨p.x, y, p.z⟩ = g.block ⟨q.x, y, q.z⟩) :
    f.skylight reg h p = g.skylight reg h q := by
  have hiff : f.OpenToSky reg h p ↔ g.OpenToSky reg h q := by
    constructor
    · intro hopen y hle hlt
      rw [← hblock y (hy ▸ hle) hlt]
      exact hopen y (hy ▸ hle) hlt
    · intro hopen y hle hlt
      rw [hblock y hle hlt]
      exact hopen y (hy ▸ hle) hlt
  by_cases ho : f.OpenToSky reg h p
  · rw [skylight_of_open ho, skylight_of_open (hiff.1 ho)]
  · rw [skylight_of_covered ho, skylight_of_covered fun ho' => ho (hiff.2 ho')]

end LightField

namespace ChunkVolume

variable {v v₀ : ChunkVolume} {p q : Pos} {k : LightKind} {n : Nat} {faulty : Prop}

/-! ## Reading -/

/-- The position relative to the chunk fits the width of a coordinate. -/
def LocalFits (v : ChunkVolume) (p : Pos) : Prop :=
  FitsCoord (p.x - v.baseX) ∧ FitsCoord (p.z - v.baseZ)

/-- Where the differences fit, the local position is found. -/
theorem toLocal_of_fits (h : v.LocalFits p) :
    v.toLocal p = .ok ⟨p.x - v.baseX, p.y, p.z - v.baseZ⟩ := by
  unfold toLocal
  rw [checkCoord_of_fits h.1, checkCoord_of_fits h.2]
  rfl

/-- Elsewhere looking for it stops. -/
theorem toLocal_of_not_fits (h : ¬ v.LocalFits p) : ∃ e, v.toLocal p = .error e := by
  cases hl : v.toLocal p with
  | error e => exact ⟨e, rfl⟩
  | ok q =>
    unfold toLocal at hl
    rcases Checked.bind_eq_ok.1 hl with ⟨x, hx, hl⟩
    rcases Checked.bind_eq_ok.1 hl with ⟨z, hz, hl⟩
    exact absurd ⟨(checkCoord_eq_ok.1 hx).1, (checkCoord_eq_ok.1 hz).1⟩ h

/-- The cells of the chunk, by position. -/
def Holds (v : ChunkVolume) (p : Pos) : Prop :=
  v.chunk.dims.Contains (p.x - v.baseX) p.y (p.z - v.baseZ)

/-- At a position with a local one the field shows what the chunk has there. -/
theorem field_of_fits (h : v.LocalFits p) :
    ((LightVolume.field v).accepts p = true ↔ v.Holds p) ∧
      (LightVolume.field v).block p = v.chunk.block (p.x - v.baseX) p.y (p.z - v.baseZ) ∧
      ∀ k, (LightVolume.field v).level k p =
        v.chunk.light (p.x - v.baseX) p.y (p.z - v.baseZ) k := by
  have hlocal := toLocal_of_fits h
  -- none of the three readings can stop
  have hacc : LightVolume.acceptsLight v p =
      .ok (v.chunk.dims.contains (p.x - v.baseX) p.y (p.z - v.baseZ)) := by
    show v.acceptsLight p = _
    unfold acceptsLight
    rw [hlocal]
    rfl
  have hblock : LightVolume.block v p =
      .ok (v.chunk.block (p.x - v.baseX) p.y (p.z - v.baseZ)) := by
    show v.block p = _
    unfold block
    rw [hlocal]
    rfl
  have hlight : ∀ k, LightVolume.light v p k =
      .ok (v.chunk.light (p.x - v.baseX) p.y (p.z - v.baseZ) k) := by
    intro k
    show v.light p k = _
    unfold light
    rw [hlocal]
    rfl
  unfold LightVolume.field
  refine ⟨?_, ?_, fun k => ?_⟩
  · simp only [hacc]
    exact decide_eq_true_iff
  · simp only [hblock]
    rfl
  · simp only [hlight]
    rfl

/-- At any other it shows air without light, and accepts none. -/
theorem field_of_not_fits (h : ¬ v.LocalFits p) :
    (LightVolume.field v).accepts p = false ∧ (LightVolume.field v).block p = air ∧
      ∀ k, (LightVolume.field v).level k p = 0 := by
  rcases toLocal_of_not_fits h with ⟨e, he⟩
  refine ⟨?_, ?_, fun k => ?_⟩
  · show (v.acceptsLight p).toOption.getD false = false
    unfold acceptsLight
    rw [he]
    rfl
  · show (v.block p).toOption.getD air = air
    unfold block
    rw [he]
    rfl
  · show (v.light p k).toOption.getD 0 = 0
    unfold light
    rw [he]
    rfl

/-! ## The laws -/

/-- Only light was written. -/
structure Repainted (v₀ v : ChunkVolume) : Prop where
  baseX : v.baseX = v₀.baseX
  baseZ : v.baseZ = v₀.baseZ
  coord : v.chunk.coord = v₀.chunk.coord
  dims : v.chunk.dims = v₀.chunk.dims
  life : v.chunk.life = v₀.chunk.life

namespace Repainted

theorem refl : Repainted v v := ⟨rfl, rfl, rfl, rfl, rfl⟩

theorem trans {u : ChunkVolume} (h : Repainted v₀ v) (h' : Repainted v u) : Repainted v₀ u where
  baseX := h'.baseX.trans h.baseX
  baseZ := h'.baseZ.trans h.baseZ
  coord := h'.coord.trans h.coord
  dims := h'.dims.trans h.dims
  life := h'.life.trans h.life

theorem holds (h : Repainted v₀ v) : v.Holds p ↔ v₀.Holds p := by
  unfold Holds
  rw [h.dims, h.baseX, h.baseZ]

theorem localFits (h : Repainted v₀ v) : v.LocalFits p ↔ v₀.LocalFits p := by
  unfold LocalFits
  rw [h.baseX, h.baseZ]

end Repainted

/-- No cell of a chunk is brighter than `maxLight`, nor is anything around it. -/
theorem light_le_maxLight (c : Chunk) (x y z : Int) (k : LightKind) :
    c.light x y z k ≤ maxLight := by
  by_cases hc : c.dims.Contains x y z
  · exact Chunk.light_le hc
  · unfold Chunk.light
    rw [NibbleArray.get?_eq_none hc]
    cases k
    · exact le_rfl
    · exact Nat.zero_le _

/-- The cells of the chunk and the positions beside them have a local position. -/
theorem localFits_of_near (hd : v.chunk.dims.Valid) (hp : Near v.Holds p) : v.LocalFits p := by
  have hx := hd.x_le
  have hz := hd.z_le
  unfold LocalFits
  rcases hp with ⟨h1, _, h3, h4, _, h6⟩ | ⟨q, ⟨h1, _, h3, h4, _, h6⟩, o, ho, rfl⟩
  · exact ⟨⟨by omega, by omega⟩, ⟨by omega, by omega⟩⟩
  · have hbound : ∀ o ∈ Light.directions, (-1 ≤ o.1 ∧ o.1 ≤ 1) ∧ (-1 ≤ o.2.2 ∧ o.2.2 ≤ 1) := by
      decide
    rcases hbound o ho with ⟨⟨hox, hox'⟩, hoz, hoz'⟩
    show FitsCoord (q.x + o.1 - v.baseX) ∧ FitsCoord (q.z + o.2.2 - v.baseZ)
    exact ⟨⟨by omega, by omega⟩, ⟨by omega, by omega⟩⟩

/-- The volume with one level written. -/
def written (v : ChunkVolume) (p : Pos) (k : LightKind) (n : Nat) : ChunkVolume :=
  { v with chunk := v.chunk.putLight (p.x - v.baseX) p.y (p.z - v.baseZ) k n }

theorem repainted_written : Repainted v (v.written p k n) where
  baseX := rfl
  baseZ := rfl
  coord := Chunk.coord_putLight
  dims := Chunk.dims_putLight
  life := Chunk.life_putLight

theorem accepts_written (p q : Pos) (k : LightKind) (n : Nat) :
    (LightVolume.field (v.written p k n)).accepts q = (LightVolume.field v).accepts q := by
  have hrep : Repainted v (v.written p k n) := repainted_written
  by_cases hq : v.LocalFits q
  · rw [Bool.eq_iff_iff, (field_of_fits hq).1, (field_of_fits (hrep.localFits.2 hq)).1]
    exact hrep.holds
  · rw [(field_of_not_fits hq).1, (field_of_not_fits (mt hrep.localFits.1 hq)).1]

theorem block_written (p q : Pos) (k : LightKind) (n : Nat) :
    (LightVolume.field (v.written p k n)).block q = (LightVolume.field v).block q := by
  have hrep : Repainted v (v.written p k n) := repainted_written
  by_cases hq : v.LocalFits q
  · rw [(field_of_fits hq).2.1, (field_of_fits (hrep.localFits.2 hq)).2.1]
    exact Chunk.block_putLight
  · rw [(field_of_not_fits hq).2.1, (field_of_not_fits (mt hrep.localFits.1 hq)).2.1]

/-- Where positions have a local one, only the level of the cell changes. -/
theorem level_written (hp : v.Holds p) (hq : v.LocalFits q) (j : LightKind) :
    (LightVolume.field (v.written p k n)).level j q =
      if j = k ∧ q = p then min n maxLight else (LightVolume.field v).level j q := by
  have hrep : Repainted v (v.written p k n) := repainted_written
  rw [(field_of_fits hq).2.2, (field_of_fits (hrep.localFits.2 hq)).2.2]
  show (v.chunk.putLight _ _ _ k n).light (q.x - v.baseX) q.y (q.z - v.baseZ) j = _
  rw [Chunk.light_putLight]
  -- both positions are read through the same corner, so they meet only if they are equal
  by_cases hqp : q = p
  · subst hqp
    by_cases hj : j = k
    · rw [if_pos ⟨hj, hp, rfl, rfl, rfl⟩, if_pos ⟨hj, rfl⟩]
    · rw [if_neg fun h => hj h.1, if_neg fun h => hj h.1]
  · rw [if_neg, if_neg fun h => hqp h.2]
    intro h
    rcases h with ⟨-, -, hx, hy, hz⟩
    rcases p with ⟨px, py, pz⟩
    rcases q with ⟨qx, qy, qz⟩
    simp only at hx hy hz
    exact hqp (by rw [hy, show qx = px by omega, show qz = pz by omega])

/-- A write outside the chunk is dropped. -/
theorem level_written_of_not_holds (hp : ¬ v.Holds p) (hq : v.LocalFits q) (j : LightKind) :
    (LightVolume.field (v.written p k n)).level j q = (LightVolume.field v).level j q := by
  have hrep : Repainted v (v.written p k n) := repainted_written
  rw [(field_of_fits hq).2.2, (field_of_fits (hrep.localFits.2 hq)).2.2]
  show (v.chunk.putLight _ _ _ k n).light (q.x - v.baseX) q.y (q.z - v.baseZ) j = _
  rw [Chunk.light_putLight, if_neg fun h => hp h.2.1]

/-- A level written to a cell of the chunk is put into the field, and nothing else happens. -/
theorem field_written (hp : v.Holds p) (hfits : v.LocalFits p) :
    LightVolume.field (v.written p k n) = (LightVolume.field v).put k p n := by
  have hrep : Repainted v (v.written p k n) := repainted_written
  refine LightField.ext_of_sameAt fun q =>
    ⟨accepts_written p q k n, block_written p q k n, fun j => ?_⟩
  by_cases hq : v.LocalFits q
  · rw [level_written hp hq j]
    by_cases hqp : q = p
    · subst hqp
      by_cases hj : j = k
      · rw [if_pos ⟨hj, rfl⟩, hj, LightField.level_put_self]
      · rw [if_neg fun h => hj h.1, LightField.level_put_of_ne hj]
    · rw [if_neg fun h => hqp h.2, (LightField.put_sameAt hqp).level]
  · -- a position without a local one is not the cell, and shows nothing in either volume
    have hqp : q ≠ p := by
      intro heq
      rw [heq] at hq
      exact hq hfits
    rw [(LightField.put_sameAt hqp).level, (field_of_not_fits hq).2.2,
      (field_of_not_fits (mt hrep.localFits.1 hq)).2.2]

/-- All three readings give what the field shows, where there is a local position. -/
theorem readings_ensures (hfits : ¬ v.LocalFits p → faulty) :
    Ensures faulty (v.acceptsLight p) (· = (LightVolume.field v).accepts p) ∧
      Ensures faulty (v.block p) (· = (LightVolume.field v).block p) ∧
      ∀ k, Ensures faulty (v.light p k) (· = (LightVolume.field v).level k p) := by
  by_cases h : v.LocalFits p
  · have hlocal := toLocal_of_fits h
    refine ⟨Ensures.toOption fun e he => ?_, Ensures.toOption fun e he => ?_,
      fun k => Ensures.toOption fun e he => ?_⟩
    · unfold acceptsLight at he
      rw [hlocal] at he
      cases he
    · unfold block at he
      rw [hlocal] at he
      cases he
    · unfold light at he
      rw [hlocal] at he
      cases he
  · exact ⟨Ensures.toOption fun _ _ => hfits h, Ensures.toOption fun _ _ => hfits h,
      fun _ => Ensures.toOption fun _ _ => hfits h⟩

/-- A step out of a chunk stays within the width of a coordinate. -/
theorem step_ensures (hd : v.chunk.dims.Valid)
    (hx : v.baseX = v.chunk.coord.x * v.chunk.dims.width)
    (hz : v.baseZ = v.chunk.coord.z * v.chunk.dims.depth)
    (hroom : ¬ Roomy v.chunk.dims v.chunk.coord → faulty) {o : Int × Int × Int} (hp : v.Holds p)
    (ho : o ∈ Light.directions) : Ensures faulty (Light.step p o) (· = Light.shift p o) := by
  have hbound : ∀ o ∈ Light.directions, (-1 ≤ o.1 ∧ o.1 ≤ 1) ∧ (-1 ≤ o.2.1 ∧ o.2.1 ≤ 1) ∧
      (-1 ≤ o.2.2 ∧ o.2.2 ≤ 1) := by decide
  rcases hbound o ho with ⟨hox, hoy, hoz⟩
  rcases hp with ⟨h1, h2, h3, h4, h5, h6⟩
  have hyle := hd.y_le
  have hw := hd.width
  have hdep := hd.depth
  unfold Light.step Pos.offset
  apply (checkCoord_ensures _ fun hn => hroom fun hr =>
    hn (hr.fits_x (by omega) (by omega))).bind_eq
  apply (checkCoord_ensures _ fun hn => absurd ⟨by omega, by omega⟩ hn).bind_eq
  apply (checkCoord_ensures _ fun hn => hroom fun hr =>
    hn (hr.fits_z (by omega) (by omega))).bind_eq
  exact Ensures.pure rfl

/-- With a local position a level is always written. -/
theorem setLight_of_fits (hfits : v.LocalFits p) : v.setLight p k n = .ok (v.written p k n) := by
  unfold setLight
  rw [toLocal_of_fits hfits]
  rfl

/-- To a cell of the chunk it is written as the laws ask. -/
theorem setLight_ensures (hfits : v.LocalFits p) (hp : v.Holds p) :
    Ensures faulty (v.setLight p k n) fun v' =>
      Repainted v v' ∧ LightVolume.field v' = (LightVolume.field v).put k p n := by
  rw [setLight_of_fits hfits]
  exact Ensures.ok ⟨repainted_written, field_written hp hfits⟩

/-- A chunk on its own is a volume whose region are the cells that have a local position. -/
theorem lawsOf {A : Pos → Prop} (hA : ∀ p, A p ↔ v₀.Holds p ∧ v₀.LocalFits p)
    (hstep : ∀ {p o}, A p → o ∈ Light.directions →
      Ensures faulty (Light.step p o) (· = Light.shift p o))
    (hnear : ∀ p, Near A p → ¬ v₀.LocalFits p → faulty) :
    VolumeLaws ChunkVolume faulty A (Repainted v₀) := by
  have hfits : ∀ {v : ChunkVolume} {p : Pos}, Repainted v₀ v → Near A p → ¬ v.LocalFits p →
      faulty := fun h hp hn => hnear _ hp (mt h.localFits.2 hn)
  refine ⟨?_, ?_, hstep, ?_, ?_, ?_, ?_⟩
  · intro v h p
    rw [hA]
    by_cases hp : v.LocalFits p
    · rw [(field_of_fits hp).1, h.holds, and_iff_left (h.localFits.1 hp)]
    · rw [(field_of_not_fits hp).1]
      exact ⟨nofun, fun hin => absurd (h.localFits.2 hin.2) hp⟩
  · intro v h k p
    by_cases hp : v.LocalFits p
    · rw [(field_of_fits hp).2.2]
      exact light_le_maxLight _ _ _ _ _
    · rw [(field_of_not_fits hp).2.2]
      exact Nat.zero_le _
  · intro v p h hp k
    exact (readings_ensures (hfits h hp)).2.2 k
  · intro v p h hp
    exact (readings_ensures (hfits h hp)).2.1
  · intro v p h hp
    exact (readings_ensures (hfits h hp)).1
  · -- a write needs a cell of the region; the reads above only ask for a local position
    intro v p h hp k n
    rcases (hA p).1 hp with ⟨hin, hlocal⟩
    apply (setLight_ensures (h.localFits.2 hlocal) (h.holds.2 hin)).mono
    intro v' hv'
    rcases hv' with ⟨hrep, hfield⟩
    exact ⟨h.trans hrep, hfield⟩

/-- In a chunk of valid sides all cells have a local position. -/
theorem volumeLaws (hd : v₀.chunk.dims.Valid)
    (hx : v₀.baseX = v₀.chunk.coord.x * v₀.chunk.dims.width)
    (hz : v₀.baseZ = v₀.chunk.coord.z * v₀.chunk.dims.depth)
    (hroom : ¬ Roomy v₀.chunk.dims v₀.chunk.coord → faulty) :
    VolumeLaws ChunkVolume faulty v₀.Holds (Repainted v₀) :=
  lawsOf (fun _ => ⟨fun hp => ⟨hp, localFits_of_near hd (Near.inside hp)⟩, And.left⟩)
    (step_ensures hd hx hz hroom) fun _ hp hn => absurd (localFits_of_near hd hp) hn

/-! ## The cells of the chunk -/

/-- The position of a cell of the chunk. -/
def pos (v : ChunkVolume) (x y z : Int) : Pos := ⟨v.baseX + x, y, v.baseZ + z⟩

/-- The local position of a cell is where it was named. -/
theorem pos_sub (v : ChunkVolume) (x y z : Int) :
    (v.pos x y z).x - v.baseX = x ∧ (v.pos x y z).z - v.baseZ = z := by
  unfold pos
  exact ⟨by simp only; omega, by simp only; omega⟩

/-- A named cell is one of the chunk. -/
theorem holds_pos {x y z : Int} (hc : v.chunk.dims.Contains x y z) : v.Holds (v.pos x y z) := by
  unfold Holds
  rw [(v.pos_sub x y z).1, (v.pos_sub x y z).2]
  exact hc

/-- Whatever light was written, the field shows at a cell what the chunk holds there. -/
theorem Repainted.field_pos (h : Repainted v₀ v) (hd : v₀.chunk.dims.Valid) {x y z : Int}
    (hc : v₀.chunk.dims.Contains x y z) :
    (LightVolume.field v).block (v₀.pos x y z) = v.chunk.block x y z ∧
      ∀ k, (LightVolume.field v).level k (v₀.pos x y z) = v.chunk.light x y z k := by
  have hfits := localFits_of_near hd (Near.inside (holds_pos hc))
  have hread := (field_of_fits (h.localFits.2 hfits)).2
  rw [h.baseX, h.baseZ, (v₀.pos_sub x y z).1, (v₀.pos_sub x y z).2] at hread
  exact hread

end ChunkVolume

/-! ## Seeding -/

namespace Light

variable {reg : Registry} {c c' : Chunk} {faulty : Prop}

/-- The chunk has the sky light of its columns, and is the same otherwise. -/
structure Seeded (reg : Registry) (c c' : Chunk) : Prop where
  coord : c'.coord = c.coord
  dims : c'.dims = c.dims
  life : c'.life = c.life
  block : ∀ x y z, c.dims.Contains x y z → c'.block x y z = c.block x y z
  blockLight : ∀ x y z, c.dims.Contains x y z → c'.light x y z .block = c.light x y z .block
  skyLight : ∀ (f : LightField) (p : Pos) x z, c.dims.Contains x p.y z →
    (∀ y, 0 ≤ y → y < c.dims.height → f.block ⟨p.x, y, p.z⟩ = c.block x y z) →
    c'.light x p.y z .sky = f.skylight reg c.dims.height p

/-! ### The loops -/

section Columns

variable {v₀ u v w : ChunkVolume} {p : Pos} {x z : Int}

/-- The cell has what the sky gives to it. -/
def Lit (reg : Registry) (v₀ v : ChunkVolume) (p : Pos) : Prop :=
  (LightVolume.field v).level .sky p =
    (LightVolume.field v₀).skylight reg v₀.chunk.dims.height p

/-- From one volume to the next a level stays, or becomes what the sky gives. -/
def Lighter (reg : Registry) (v₀ u v : ChunkVolume) : Prop :=
  ∀ p, (LightVolume.field v).level .sky p = (LightVolume.field u).level .sky p ∨ Lit reg v₀ v p

namespace Lighter

theorem refl (u : ChunkVolume) : Lighter reg v₀ u u := fun _ => .inl rfl

theorem trans (huv : Lighter reg v₀ u v) (hvw : Lighter reg v₀ v w) : Lighter reg v₀ u w := by
  intro p
  rcases hvw p with hp | hp
  · unfold Lit
    rw [hp]
    exact huv p
  · exact .inr hp

/-- A cell that is done stays done. -/
theorem lit (h : Lighter reg v₀ u v) (hp : Lit reg v₀ u p) : Lit reg v₀ v p := by
  rcases h p with hkept | hlit
  · exact hkept.trans hp
  · exact hlit

end Lighter

/-- The levels are all that the volume does not have from the chunk. -/
def Seeding (v₀ v : ChunkVolume) : Prop :=
  ∃ L, Shows (ChunkVolume.Repainted v₀) (LightVolume.field v₀) .sky v L

variable (hd : v₀.chunk.dims.Valid)
  (hx : v₀.baseX = v₀.chunk.coord.x * v₀.chunk.dims.width)
  (hz : v₀.baseZ = v₀.chunk.coord.z * v₀.chunk.dims.depth)
  (hroom : ¬ Roomy v₀.chunk.dims v₀.chunk.coord → faulty)

include hd hx hz hroom

/-- One column lights its cells. -/
theorem seedChunkColumn_ensures (hu : Seeding v₀ u) (hxmem : x ∈ sideRange v₀.chunk.dims.width)
    (hzmem : z ∈ sideRange v₀.chunk.dims.depth) :
    Ensures faulty (do
      let wx ← checkCoord (u.baseX + x)
      let wz ← checkCoord (u.baseZ + z)
      refreshColumn reg u wx wz false false) fun v =>
      Seeding v₀ v ∧ Lighter reg v₀ u v ∧
        ∀ p, v₀.Holds p → p.x = v₀.baseX + x → p.z = v₀.baseZ + z → Lit reg v₀ v p := by
  have hw := hd.width
  have hdep := hd.depth
  have hh := hd.height
  rcases hu with ⟨L, hshow⟩
  rcases mem_sideRange.1 hxmem with ⟨hx1, hx2⟩
  rcases mem_sideRange.1 hzmem with ⟨hz1, hz2⟩
  rw [hshow.good.baseX, hshow.good.baseZ]
  apply (checkCoord_ensures _ fun hn => hroom fun hr =>
    hn (hr.fits_x (by omega) (by omega))).bind_eq
  apply (checkCoord_ensures _ fun hn => hroom fun hr =>
    hn (hr.fits_z (by omega) (by omega))).bind_eq
  have hheight : LightVolume.height u = v₀.chunk.dims.height := by
    show u.chunk.dims.height = _
    rw [hshow.good.dims]
  -- the cells of the column are those of the chunk
  have hcol : ∀ y : Nat, y < (LightVolume.height u).toNat →
      v₀.Holds ⟨v₀.baseX + x, y, v₀.baseZ + z⟩ := by
    intro y hy
    rw [hheight] at hy
    exact ChunkVolume.holds_pos ⟨by omega, by omega, by omega, by omega, by omega, by omega⟩
  apply (seedColumn_ensures (ChunkVolume.volumeLaws hd hx hz hroom) hshow hcol).mono
  intro v hshow'
  rw [hheight] at hshow'
  refine ⟨⟨_, hshow'⟩, fun p => ?_, fun p hp hpx hpz => ?_⟩
  · -- other columns keep their levels
    unfold Lit
    rw [hshow'.levels, hshow.levels]
    by_cases hp : InColumn v₀.chunk.dims.height (v₀.baseX + x) (v₀.baseZ + z) 0 p
    · exact .inr (seededFrom_of_in hp)
    · exact .inl (seededFrom_of_not_in hp)
  · unfold Lit
    rw [hshow'.levels]
    rcases hp with ⟨-, hy, -, -, hy', -⟩
    exact seededFrom_of_in ⟨hpx, hpz, hy, by omega⟩

/-- The columns of one row. -/
theorem seedRow_ensures (hu : Seeding v₀ u) (hxmem : x ∈ sideRange v₀.chunk.dims.width) :
    Ensures faulty ((sideRange u.chunk.dims.depth).foldlM (fun (vol : ChunkVolume) z => do
        let wx ← checkCoord (vol.baseX + x)
        let wz ← checkCoord (vol.baseZ + z)
        refreshColumn reg vol wx wz false false) u) fun v =>
      Seeding v₀ v ∧ Lighter reg v₀ u v ∧
        ∀ p, v₀.Holds p → p.x = v₀.baseX + x → Lit reg v₀ v p := by
  have hdep := hd.depth
  have hdims : u.chunk.dims = v₀.chunk.dims := by
    rcases hu with ⟨L, hshow⟩
    exact hshow.good.dims
  rw [hdims]
  apply (Ensures.foldlM_all (G := Seeding v₀) (T := Lighter reg v₀)
    (P := fun z v => ∀ p, v₀.Holds p → p.x = v₀.baseX + x → p.z = v₀.baseZ + z → Lit reg v₀ v p)
    Lighter.refl (fun _ _ _ => Lighter.trans)
    (fun z u v hT hP p hp hpx hpz => hT.lit (hP p hp hpx hpz))
    (fun z u hzmem hu => seedChunkColumn_ensures hd hx hz hroom hu hxmem hzmem) hu).mono
  intro v hv
  rcases hv with ⟨hseeding, hlighter, hlit⟩
  refine ⟨hseeding, hlighter, fun p hp hpx => ?_⟩
  -- a cell of the row lies in one of its columns
  have hcell := hp
  rcases hcell with ⟨-, -, hz1, -, -, hz2⟩
  exact hlit (p.z - v₀.baseZ) (mem_sideRange.2 ⟨hz1, by omega⟩) p hp hpx (by omega)

/-- All columns of a chunk. -/
theorem seedColumns_ensures :
    Ensures faulty ((sideRange v₀.chunk.dims.width).foldlM (fun (vol : ChunkVolume) x =>
      (sideRange vol.chunk.dims.depth).foldlM (fun (vol : ChunkVolume) z => do
        let wx ← checkCoord (vol.baseX + x)
        let wz ← checkCoord (vol.baseZ + z)
        refreshColumn reg vol wx wz false false) vol) v₀) fun v =>
      Seeding v₀ v ∧ ∀ p, v₀.Holds p → Lit reg v₀ v p := by
  have hw := hd.width
  apply (Ensures.foldlM_all (G := Seeding v₀) (T := Lighter reg v₀)
    (P := fun x v => ∀ p, v₀.Holds p → p.x = v₀.baseX + x → Lit reg v₀ v p)
    Lighter.refl (fun _ _ _ => Lighter.trans)
    (fun x u v hT hP p hp hpx => hT.lit (hP p hp hpx))
    (fun x u hxmem hu => seedRow_ensures hd hx hz hroom hu hxmem)
    ⟨_, Shows.refl ChunkVolume.Repainted.refl⟩).mono
  intro v hv
  rcases hv with ⟨hseeding, -, hlit⟩
  refine ⟨hseeding, fun p hp => ?_⟩
  have hcell := hp
  rcases hcell with ⟨hx1, -, -, hx2, -, -⟩
  exact hlit (p.x - v₀.baseX) (mem_sideRange.2 ⟨hx1, by omega⟩) p hp (by omega)

end Columns

/-! ### The chunk -/

/-- A chunk on its own at the corner that its coordinate gives. -/
theorem chunkVolume_ensures (hd : c.dims.Valid) (hroom : ¬ Roomy c.dims c.coord → faulty) :
    Ensures faulty (ChunkVolume.new c)
      (· = ⟨c, c.coord.x * c.dims.width, c.coord.z * c.dims.depth⟩) := by
  unfold ChunkVolume.new Chunk.worldX Chunk.worldZ ChunkCoord.worldX ChunkCoord.worldZ
  apply (checkCoord_ensures _ fun hn => hroom fun hr => hn (hr.corner hd).1).bind_eq
  apply (checkCoord_ensures _ fun hn => hroom fun hr => hn (hr.corner hd).2).bind_eq
  exact Ensures.pure rfl

/-- Seeding ends with every column lit by the sky, or stops where the chunk has no room. -/
theorem seedSky_ensures (hd : c.dims.Valid) (hroom : ¬ Roomy c.dims c.coord → faulty) :
    Ensures faulty (seedSky reg c) (Seeded reg c) := by
  unfold seedSky
  apply (chunkVolume_ensures hd hroom).bind_eq
  let v₀ : ChunkVolume := ⟨c, c.coord.x * c.dims.width, c.coord.z * c.dims.depth⟩
  apply (seedColumns_ensures hd (rfl : v₀.baseX = _) rfl hroom).bind
  intro v hv
  rcases hv with ⟨⟨L, hshow⟩, hsky⟩
  have hrep := hshow.good
  have hread₀ := fun x y z => (ChunkVolume.Repainted.refl (v := v₀)).field_pos hd (x := x)
    (y := y) (z := z)
  -- what was read before the loops is compared with what is read after them
  refine Ensures.pure ⟨hrep.coord, hrep.dims, hrep.life, ?_, ?_, ?_⟩
  · intro x y z hc
    rw [← (hrep.field_pos hd hc).1, hshow.field_eq, LightField.block_withLevels,
      (hread₀ x y z hc).1]
  · intro x y z hc
    rw [← (hrep.field_pos hd hc).2, hshow.field_eq,
      LightField.level_withLevels_of_ne _ _ (by decide), (hread₀ x y z hc).2]
  · -- the sky gives to a cell the same in every field with this column
    intro g p x z hc hcol
    rw [← (hrep.field_pos hd hc).2, hsky _ (ChunkVolume.holds_pos hc)]
    refine LightField.skylight_congr rfl fun y hle hlt => ?_
    rcases hc with ⟨hx1, hy1, hz1, hx2, hy2, hz2⟩
    have hh := hd.height
    have hle' : p.y ≤ y := hle
    have hlt' : y < c.dims.height := hlt
    have hcell : c.dims.Contains x y z := ⟨hx1, by omega, hz1, hx2, by omega, hz2⟩
    rw [hcol y (by omega) hlt]
    exact (hread₀ x y z hcell).1

end Light

end VoxelWorld
