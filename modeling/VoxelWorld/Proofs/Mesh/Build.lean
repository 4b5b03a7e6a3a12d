import VoxelWorld.Mesh.Mesher
import VoxelWorld.Proofs.Coord
import VoxelWorld.Proofs.Mesh.Drawn

/-!
# Proofs.Mesh.Build — what a mesh depends on

* A mesh is built from the cells of a chunk and from those beside them, and nothing is read
  below the world: `build_refines` says that two views that agree there have the same mesh.
* `build_ensures` says that building stops only where a reading or the place of a cell stops.
-/

namespace VoxelWorld.Mesher

variable {V V' : Type} [VoxelView V] [VoxelView V'] {view : V} {view' : V'} {reg : Registry}
  {d : Dims} {c : ChunkCoord} {p : Pos} {id : BlockId} {g : MeshGeometry} {faulty : Prop}

/-- What the first view shows at a position, the second shows too. -/
structure Agree (view : V) (view' : V') (p : Pos) : Prop where
  block : Refines (VoxelView.block view p) (VoxelView.block view' p)
  light : ∀ k, Refines (VoxelView.light view p k) (VoxelView.light view' p k)

/-- The positions that the mesh of a chunk is built from. -/
def Reads (d : Dims) (c : ChunkCoord) (p : Pos) : Prop := Sees d c p ∧ 0 ≤ p.y

/-! ## Places -/

/-- A cell of the chunk and its side. -/
theorem reads_step (hp : p.home d = c) (hd : d.Valid) {f : Face} {n : Pos}
    (hn : p.offset f.step.1 f.step.2.1 f.step.2.2 = .ok n) (hy : ¬ n.y < 0) : Reads d c n := by
  rcases (Pos.home_eq_iff hd).1 hp with ⟨⟨hx, hx'⟩, hz, hz'⟩
  have hstep : ∀ f : Face, (-1 ≤ f.step.1 ∧ f.step.1 ≤ 1) ∧
      (-1 ≤ f.step.2.2 ∧ f.step.2.2 ≤ 1) := by
    intro f
    cases f <;> decide
  rcases hstep f with ⟨hfx, hfz⟩
  -- no coordinate of the step overflowed, so it leads where it says
  have heq : n = ⟨p.x + f.step.1, p.y + f.step.2.1, p.z + f.step.2.2⟩ := by
    unfold Pos.offset at hn
    rcases Checked.bind_eq_ok.1 hn with ⟨x, hnx, hn⟩
    rcases Checked.bind_eq_ok.1 hn with ⟨y, hny, hn⟩
    rcases Checked.bind_eq_ok.1 hn with ⟨z, hnz, hn⟩
    cases Checked.pure_eq_ok.1 hn
    rw [(checkCoord_eq_ok.1 hnx).2, (checkCoord_eq_ok.1 hny).2, (checkCoord_eq_ok.1 hnz).2]
  rw [heq] at hy ⊢
  simp only at hy
  exact ⟨⟨by simp only; omega, by simp only; omega, by simp only; omega, by simp only; omega⟩,
    by simp only; omega⟩

/-- The cells of the chunk are among the positions that its mesh reads. -/
theorem reads_self (hp : p.home d = c) (hd : d.Valid) (hy : 0 ≤ p.y) : Reads d c p := by
  rcases (Pos.home_eq_iff hd).1 hp with ⟨⟨hx, hx'⟩, hz, hz'⟩
  exact ⟨⟨by omega, by omega, by omega, by omega⟩, hy⟩

/-- The cells that are gone through belong to the chunk. -/
theorem home_of_range (hd : d.Valid) {baseX baseZ x y z wx wz : Int}
    (hbx : c.worldX d = .ok baseX) (hbz : c.worldZ d = .ok baseZ) (hx : x ∈ sideRange d.width)
    (hz : z ∈ sideRange d.depth) (hwx : checkCoord (baseX + x) = .ok wx)
    (hwz : checkCoord (baseZ + z) = .ok wz) : (⟨wx, y, wz⟩ : Pos).home d = c := by
  rcases mem_sideRange.1 hx with ⟨hx0, hx1⟩
  rcases mem_sideRange.1 hz with ⟨hz0, hz1⟩
  have hbx' := (checkCoord_eq_ok.1 hbx).2
  have hbz' := (checkCoord_eq_ok.1 hbz).2
  have hwx' := (checkCoord_eq_ok.1 hwx).2
  have hwz' := (checkCoord_eq_ok.1 hwz).2
  rw [hd.width] at hx1 hbx'
  rw [hd.depth] at hz1 hbz'
  refine (Pos.home_eq_iff hd).2 ⟨⟨?_, ?_⟩, ?_, ?_⟩
  · show c.x * d.x ≤ wx
    omega
  · show wx < c.x * d.x + d.x
    omega
  · show c.z * d.z ≤ wz
    omega
  · show wz < c.z * d.z + d.z
    omega

/-! ## Two views -/

section Refines

variable (hd : d.Valid) (hagree : ∀ p, Reads d c p → Agree view view' p)

/-- Shading reads the light of one position only. -/
theorem shade_refines (h : Agree view view' p) (factor : Float32) :
    Refines (shade view p factor) (shade view' p factor) := by
  unfold shade
  apply Refines.bind (h.light .sky)
  intro sky
  apply Refines.bind (h.light .block)
  intro block
  exact Refines.refl

include hd hagree

/-- A side reads the block and the light of the position it faces. -/
theorem buildFace_refines (hp : p.home d = c) (f : Face) :
    Refines (buildFace reg view p id g f) (buildFace reg view' p id g f) := by
  unfold buildFace
  -- the side is the same for both views, and is read only if it is not below the world
  intro g' hg
  rcases Checked.bind_eq_ok.1 hg with ⟨n, hn, hg⟩
  refine Checked.bind_eq_ok.2 ⟨n, hn, ?_⟩
  revert hg
  suffices h : Refines _ _ from h g'
  apply Refines.ite
  · intro _
    exact Refines.refl
  · intro hy
    have hag := hagree n (reads_step hp hd hn hy)
    apply Refines.bind hag.block
    intro there
    apply Refines.ite
    · intro _
      apply Refines.bind (shade_refines hag f.shade)
      intro color
      exact Refines.refl
    · intro _
      exact Refines.refl

/-- A cell reads itself and what its sides face. -/
theorem buildCell_refines (hp : p.home d = c) (hy : 0 ≤ p.y) :
    Refines (buildCell reg view p g) (buildCell reg view' p g) := by
  have hag := hagree p (reads_self hp hd hy)
  unfold buildCell
  apply Refines.bind hag.block
  intro id
  apply Refines.ite
  · intro _
    exact Refines.refl
  · intro _
    apply Refines.ite
    · intro _
      apply Refines.bind (shade_refines hag 1)
      intro color
      exact Refines.refl
    · intro _
      apply Refines.foldlM
      intro f _ s
      exact buildFace_refines hd hagree hp f

/-- Views that agree on a chunk and the cells beside it have the same mesh for it. -/
theorem build_refines : Refines (build reg view c d) (build reg view' c d) := by
  unfold build
  intro g hg
  rcases Checked.bind_eq_ok.1 hg with ⟨baseX, hbx, hg⟩
  rcases Checked.bind_eq_ok.1 hg with ⟨baseZ, hbz, hg⟩
  refine Checked.bind_eq_ok.2 ⟨baseX, hbx, Checked.bind_eq_ok.2 ⟨baseZ, hbz, ?_⟩⟩
  revert hg
  suffices h : Refines _ _ from h g
  apply Refines.foldlM
  intro y hy s
  apply Refines.foldlM
  intro z hz s
  apply Refines.foldlM
  intro x hx s g' hg
  rcases Checked.bind_eq_ok.1 hg with ⟨wx, hwx, hg⟩
  rcases Checked.bind_eq_ok.1 hg with ⟨wz, hwz, hg⟩
  refine Checked.bind_eq_ok.2 ⟨wx, hwx, Checked.bind_eq_ok.2 ⟨wz, hwz, ?_⟩⟩
  have hp : (⟨wx, y, wz⟩ : Pos).home d = c := home_of_range hd hbx hbz hx hz hwx hwz
  exact buildCell_refines hd hagree hp (mem_sideRange.1 hy).1 g' hg

end Refines

/-! ## Building stops -/

/-- The cells of a chunk, with sides as they are. -/
theorem mem_cells_iff (hd : d.Valid) : p ∈ cells d c ↔ (c.x * d.x ≤ p.x ∧ p.x < c.x * d.x + d.x) ∧
    (0 ≤ p.y ∧ p.y < d.y) ∧ c.z * d.z ≤ p.z ∧ p.z < c.z * d.z + d.z := by
  rw [mem_cells, hd.width, hd.height, hd.depth]

/-- What a cell faces is one of the columns beside the chunk at most. -/
theorem sees_past (hd : d.Valid) (hp : p ∈ cells d c) (f : Face) : Sees d c (p.past f) := by
  have := (mem_cells_iff hd).1 hp
  refine ⟨?_, ?_, ?_, ?_⟩ <;> cases f <;> simp only [Pos.past, Face.step] <;> omega

/-- A mesh reads no more than the chunk and what is beside it. -/
theorem reads_of_met (hd : d.Valid) (h : Met d c p) : Reads d c p := by
  rcases h with hp | ⟨q, hq, f, rfl, hy⟩
  · have := (mem_cells_iff hd).1 hp
    exact ⟨⟨by omega, by omega, by omega, by omega⟩, by omega⟩
  · exact ⟨sees_past hd hq f, hy⟩

/-- Where there is room all of these columns have coordinates. -/
theorem fits_of_sees (hd : d.Valid) (hr : Roomy d c) (h : Sees d c p) :
    FitsCoord p.x ∧ FitsCoord p.z := by
  rcases h with ⟨hxl, hxh, hzl, hzh⟩
  rw [← hd.width] at hxl hxh
  rw [← hd.depth] at hzl hzh
  exact ⟨hr.fits_x hxl hxh, hr.fits_z hzl hzh⟩

/-- Where there is room and everything can be read, nothing is in the way. -/
theorem clear_of_roomy (hd : d.Valid) (hr : Roomy d c)
    (hread : ∀ p, Reads d c p → FitsCoord p.x → FitsCoord p.z →
      (∃ b, VoxelView.block view p = .ok b) ∧ ∀ k, ∃ n, VoxelView.light view p k = .ok n) :
    Clear view d c := by
  have hmet : ∀ p, Met d c p →
      (∃ b, VoxelView.block view p = .ok b) ∧ ∀ k, ∃ n, VoxelView.light view p k = .ok n := by
    intro p hp
    have hreads := reads_of_met hd hp
    have hfits := fits_of_sees hd hr hreads.1
    exact hread p hreads hfits.1 hfits.2
  refine ⟨(hr.corner hd).1, (hr.corner hd).2, fun p hp f => ?_, fun p hp => (hmet p hp).1,
    fun p hp => (hmet p hp).2⟩
  have hfits := fits_of_sees hd hr (sees_past hd hp f)
  refine ⟨hfits.1, ?_, hfits.2⟩
  have hy := ((mem_cells_iff hd).1 hp).2.1
  have hyle := hd.y_le
  -- a cell has coordinates one past it on either side
  cases f <;>
    exact ⟨by simp only [Pos.past, Face.step]; omega, by simp only [Pos.past, Face.step]; omega⟩

/-- Building stops only where the chunk has no room or a reading stops. -/
theorem build_ensures (hd : d.Valid) (hroom : ¬ Roomy d c → faulty)
    (hread : ∀ p, Reads d c p → FitsCoord p.x → FitsCoord p.z →
      Ensures faulty (VoxelView.block view p) (fun _ => True) ∧
        ∀ k, Ensures faulty (VoxelView.light view p k) fun _ => True) :
    Ensures faulty (build reg view c d) fun _ => True := by
  by_cases hf : faulty
  · exact Ensures.anyhow hf
  · have hr : Roomy d c := Classical.byContradiction fun hn => hf (hroom hn)
    have hclear : Clear view d c := by
      refine clear_of_roomy hd hr fun p hp hx hz => ?_
      obtain ⟨hblock, hlight⟩ := hread p hp hx hz
      obtain ⟨b, hb, -⟩ := hblock.exists_ok hf
      refine ⟨⟨b, hb⟩, fun k => ?_⟩
      obtain ⟨n, hn, -⟩ := (hlight k).exists_ok hf
      exact ⟨n, hn⟩
    obtain ⟨g, hg⟩ := build_draws.total.1 hclear
    rw [hg]
    trivial

/-- A chunk without cells has an empty mesh, whatever it is built from. -/
theorem build_of_empty (hx : FitsCoord (c.x * d.width)) (hz : FitsCoord (c.z * d.depth))
    (h : d.x = 0 ∨ d.y = 0 ∨ d.z = 0) : build reg view c d = .ok .empty := by
  have hside : ∀ n : Nat, n = 0 → sizeAsCoord n = 0 := by
    rintro _ rfl
    rfl
  have hsides : d.width = 0 ∨ d.height = 0 ∨ d.depth = 0 :=
    h.imp (hside _) (Or.imp (hside _) (hside _))
  -- without cells nothing is read that could stop
  have hnone : ∀ p, p ∉ cells d c := by
    intro p hp
    have hp := mem_cells.1 hp
    omega
  have hmet : ∀ p, ¬ Met d c p := by
    rintro p (hp | ⟨q, hq, -⟩)
    · exact hnone p hp
    · exact hnone q hq
  have hclear : Clear view d c :=
    ⟨hx, hz, fun p hp => absurd hp (hnone p), fun p hp => absurd hp (hmet p),
      fun p hp => absurd hp (hmet p)⟩
  obtain ⟨g, hg⟩ := build_draws.total.1 hclear
  rw [hg, (build_draws.of_eq_ok hg).1, drawn, List.eq_nil_iff_forall_not_mem.2 hnone]
  rfl

end VoxelWorld.Mesher
