import VoxelWorld.Proofs.Ensures
import VoxelWorld.Proofs.Mesh.Quads

/-!
# Proofs.Mesh.Drawn — what the mesher draws

`drawn` lists the parts of a chunk from what can be seen in a view: for each cell nothing, a plant,
or those sides that show. `build_draws` says that `build` gives exactly the streams of this list,
and that it stops only if a place or a reading of the chunk is not there (`Clear`).

`Draws` is the shape of all the steps in between: a step takes the streams of some parts to the
streams of these and some more.
-/

namespace VoxelWorld

/-- The cell that a side faces. -/
def Pos.past (p : Pos) (f : Face) : Pos := ⟨p.x + f.step.1, p.y + f.step.2.1, p.z + f.step.2.2⟩

/-- A place that can be written down. -/
structure Pos.Fits (p : Pos) : Prop where
  x : FitsCoord p.x
  y : FitsCoord p.y
  z : FitsCoord p.z

/-- Going to the position past a side stops only if that cannot be written down. -/
theorem Pos.offset_ensures {p : Pos} {f : Face} {faulty : Prop} (h : ¬ (p.past f).Fits → faulty) :
    Ensures faulty (p.offset f.step.1 f.step.2.1 f.step.2.2) (· = p.past f) := by
  unfold offset
  apply (checkCoord_ensures _ fun hn => h fun hfits => hn hfits.x).bind_eq
  apply (checkCoord_ensures _ fun hn => h fun hfits => hn hfits.y).bind_eq
  apply (checkCoord_ensures _ fun hn => h fun hfits => hn hfits.z).bind_eq
  exact Ensures.pure rfl

namespace Mesher

variable {V : Type} [VoxelView V] {reg : Registry} {view : V} {d : Dims} {c : ChunkCoord} {p : Pos}
  {f : Face} {faulty : Prop}

/-! ## Seeing -/

/-- The block that a view shows. -/
def blockSeen (view : V) (p : Pos) : BlockId := (VoxelView.block view p).toOption.getD air

/-- The light that a view shows in one channel. -/
def channelSeen (view : V) (p : Pos) (k : LightKind) : Nat :=
  (VoxelView.light view p k).toOption.getD 0

/-- The brighter of the two channels. -/
def lightSeen (view : V) (p : Pos) : Nat :=
  max (channelSeen view p .sky) (channelSeen view p .block)

/-- The view does show a block. -/
def Shown (view : V) (p : Pos) : Prop := VoxelView.block view p = .ok (blockSeen view p)

/-- The view does show light. -/
def Lit (view : V) (p : Pos) : Prop := ∀ k, VoxelView.light view p k = .ok (channelSeen view p k)

/-- What is shown is what is seen. -/
theorem blockSeen_of_eq {b : BlockId} (h : VoxelView.block view p = .ok b) :
    blockSeen view p = b := by
  unfold blockSeen
  rw [h]
  rfl

/-- The level that is shown is the one that is seen. -/
theorem channelSeen_of_eq {k : LightKind} {n : Nat} (h : VoxelView.light view p k = .ok n) :
    channelSeen view p k = n := by
  unfold channelSeen
  rw [h]
  rfl

/-! ## Drawing -/

/-- The cells of a chunk in the order in which they are drawn. -/
def cells (d : Dims) (c : ChunkCoord) : List Pos :=
  (sideRange d.height).flatMap fun y =>
    (sideRange d.depth).flatMap fun z =>
      (sideRange d.width).map fun x => ⟨c.x * d.width + x, y, c.z * d.depth + z⟩

/-- The pass of a block that is drawn as a cube. -/
def passOf (t : BlockType) : Pass := if t.translucent then .translucent else .solid

/-- One side, if it shows. -/
def sideAt (reg : Registry) (view : V) (p : Pos) (f : Face) : List Part :=
  let here := blockSeen view p
  let n := p.past f
  if 0 ≤ n.y ∧ showsFace reg here (blockSeen view n) then
    [.side p f (passOf (reg.get here)) (shadeOf (lightSeen view n) f.shade)]
  else []

/-- The parts of one cell. -/
def partsAt (reg : Registry) (view : V) (p : Pos) : List Part :=
  let type := reg.get (blockSeen view p)
  if type.invisible then []
  else if type.isBillboard then [.plant p (shadeOf (lightSeen view p) 1)]
  else Face.all.flatMap (sideAt reg view p)

/-- The parts of a chunk. -/
def drawn (reg : Registry) (view : V) (d : Dims) (c : ChunkCoord) : List Part :=
  (cells d c).flatMap (partsAt reg view)

/-- Where the light of a part comes from. -/
def source : Part → Pos
  | .side p f _ _ => p.past f
  | .plant p _ => p

/-- The cells of a chunk are those of its columns, over its height. -/
theorem mem_cells : p ∈ cells d c ↔
    (c.x * d.width ≤ p.x ∧ p.x < c.x * d.width + d.width) ∧ (0 ≤ p.y ∧ p.y < d.height) ∧
      c.z * d.depth ≤ p.z ∧ p.z < c.z * d.depth + d.depth := by
  rcases p with ⟨px, py, pz⟩
  simp only [cells, List.mem_flatMap, List.mem_map, mem_sideRange, Pos.mk.injEq]
  constructor
  · rintro ⟨y, hy, z, hz, x, hx, rfl, rfl, rfl⟩
    omega
  · rintro ⟨hx, hy, hz⟩
    exact ⟨py, hy, pz - c.z * d.depth, by omega, px - c.x * d.width, by omega, by omega, rfl,
      by omega⟩

/-! ## Steps -/

/-- A step adds some parts, having made sure of something that it read. -/
def Draws (faulty : Prop) (step : MeshGeometry → Checked MeshGeometry) (parts : List Part)
    (known : Prop) : Prop :=
  ∀ earlier, Ensures faulty (step (.ofParts earlier)) fun g =>
    g = .ofParts (earlier ++ parts) ∧ known

/-- A step that leaves the mesh as it is draws nothing. -/
theorem Draws.nothing {known : Prop} (h : known) :
    Draws faulty (fun g => Pure.pure g) [] known := by
  intro earlier
  rw [List.append_nil]
  exact Ensures.pure ⟨rfl, h⟩

/-- Step of a loop to a whole loop. -/
theorem Draws.loop {α : Type} {step : MeshGeometry → α → Checked MeshGeometry} {l : List α}
    {parts : α → List Part} {known : α → Prop}
    (h : ∀ a ∈ l, Draws faulty (fun g => step g a) (parts a) (known a)) :
    Draws faulty (fun g => l.foldlM step g) (l.flatMap parts) (∀ a ∈ l, known a) := by
  induction l with
  | nil => exact Draws.nothing nofun
  | cons a rest ih =>
    intro earlier
    show Ensures faulty ((a :: rest).foldlM step (.ofParts earlier)) _
    rw [List.foldlM_cons]
    apply (h a List.mem_cons_self earlier).bind
    rintro g ⟨rfl, hknown⟩
    apply (ih (fun b hb => h b (List.mem_cons_of_mem a hb)) _).mono
    rintro g ⟨rfl, hrest⟩
    rw [List.flatMap_cons, List.append_assoc]
    exact ⟨rfl, List.forall_mem_cons.2 ⟨hknown, hrest⟩⟩

/-- The places that a mesh is built from: the cells of the chunk and those beside them that are not
below the world. -/
def Met (d : Dims) (c : ChunkCoord) (p : Pos) : Prop :=
  p ∈ cells d c ∨ ∃ q ∈ cells d c, ∃ f, p = q.past f ∧ 0 ≤ p.y

/-- No coordinate of the chunk or beside it overflows, and the view shows all of it. -/
structure Clear (view : V) (d : Dims) (c : ChunkCoord) : Prop where
  corner_x : FitsCoord (c.x * d.width)
  corner_z : FitsCoord (c.z * d.depth)
  past : ∀ p ∈ cells d c, ∀ f, (p.past f).Fits
  block : ∀ p, Met d c p → ∃ b, VoxelView.block view p = .ok b
  light : ∀ p, Met d c p → ∀ k, ∃ n, VoxelView.light view p k = .ok n

/-- Reading a block stops only where the view has none to show. -/
theorem block_ensures (hp : Met d c p) : Ensures (¬ Clear view d c) (VoxelView.block view p)
    fun b => b = blockSeen view p ∧ Shown view p := by
  refine Ensures.intro (fun b hb => ?_) fun e he hclear => ?_
  · have hseen := blockSeen_of_eq hb
    exact ⟨hseen.symm, hb.trans (congrArg _ hseen.symm)⟩
  · obtain ⟨b, hb⟩ := hclear.block p hp
    rw [he] at hb
    cases hb

/-- Light that a mesh reads is shown, and it is the level that is seen. -/
theorem light_ensures (hp : Met d c p) (k : LightKind) :
    Ensures (¬ Clear view d c) (VoxelView.light view p k)
      fun n => n = channelSeen view p k ∧ VoxelView.light view p k = .ok n := by
  refine Ensures.intro (fun n hn => ⟨(channelSeen_of_eq hn).symm, hn⟩) fun e he hclear => ?_
  obtain ⟨n, hn⟩ := hclear.light p hp k
  rw [he] at hn
  cases hn

/-- A shade comes from the brighter channel of the position. -/
theorem shade_draws (hp : Met d c p) (factor : Float32) :
    Ensures (¬ Clear view d c) (shade view p factor)
      fun color => color = shadeOf (lightSeen view p) factor ∧ Lit view p := by
  unfold shade
  apply (light_ensures hp .sky).bind
  rintro _ ⟨rfl, hsky⟩
  apply (light_ensures hp .block).bind
  rintro _ ⟨rfl, hblock⟩
  refine Ensures.pure ⟨rfl, fun k => ?_⟩
  cases k with
  | sky => exact hsky
  | block => exact hblock

/-- A side draws one quad or none, in the light of what it faces. -/
theorem buildFace_draws (hp : p ∈ cells d c) (f : Face) :
    Draws (¬ Clear view d c) (fun g => buildFace reg view p (blockSeen view p) g f)
      (sideAt reg view p f) (∀ part ∈ sideAt reg view p f, Lit view (source part)) := by
  intro earlier
  have hoffset : Ensures (¬ Clear view d c) (p.offset f.step.1 f.step.2.1 f.step.2.2)
      (· = p.past f) := Pos.offset_ensures fun hn hclear => hn (hclear.past p hp f)
  unfold buildFace
  apply hoffset.bind_eq
  refine Ensures.ite (fun hy => ?_) fun hy => ?_
  · -- nothing is drawn toward what is below the world
    have hnone : sideAt reg view p f = [] := if_neg fun h => by omega
    rw [hnone]
    exact Draws.nothing nofun earlier
  · have hmet : Met d c (p.past f) := .inr ⟨p, hp, f, rfl, by omega⟩
    apply (block_ensures hmet).bind
    rintro _ ⟨rfl, -⟩
    refine Ensures.ite (fun hshows => ?_) fun hshows => ?_
    · have hone : sideAt reg view p f = [.side p f (passOf (reg.get (blockSeen view p)))
          (shadeOf (lightSeen view (p.past f)) f.shade)] := if_pos ⟨by omega, hshows⟩
      rw [hone]
      apply (shade_draws hmet f.shade).bind
      rintro _ ⟨rfl, hlit⟩
      exact Ensures.pure ⟨MeshGeometry.addFace_ofParts _, List.forall_mem_singleton.2 hlit⟩
    · have hnone : sideAt reg view p f = [] := if_neg fun h => hshows h.2
      rw [hnone]
      exact Draws.nothing nofun earlier

/-- A cell draws a plant, its sides or nothing. -/
theorem buildCell_draws (hp : p ∈ cells d c) :
    Draws (¬ Clear view d c) (fun g => buildCell reg view p g) (partsAt reg view p)
      (Shown view p ∧ ∀ part ∈ partsAt reg view p, Lit view (source part)) := by
  intro earlier
  unfold buildCell
  apply (block_ensures (.inl hp)).bind
  rintro _ ⟨rfl, hshown⟩
  unfold partsAt
  -- invisible blocks, then plants, then cubes
  refine Ensures.ite (fun hinv => ?_) fun hinv => ?_
  · rw [if_pos hinv]
    exact Draws.nothing ⟨hshown, nofun⟩ earlier
  rw [if_neg hinv]
  refine Ensures.ite (fun hplant => ?_) fun hplant => ?_
  · rw [if_pos hplant]
    apply (shade_draws (.inl hp) 1).bind
    rintro _ ⟨rfl, hlit⟩
    exact Ensures.pure ⟨MeshGeometry.addBillboard_ofParts, hshown, List.forall_mem_singleton.2 hlit⟩
  · rw [if_neg hplant]
    apply (Draws.loop (fun f _ => buildFace_draws hp f) earlier).mono
    rintro g ⟨rfl, hlit⟩
    refine ⟨rfl, hshown, fun part hpart => ?_⟩
    obtain ⟨f, hf, hpart⟩ := List.mem_flatMap.1 hpart
    exact hlit f hf part hpart

/-- The mesh of a chunk is what is drawn of it, and all of that was seen. -/
theorem build_draws : Ensures (¬ Clear view d c) (build reg view c d) fun g =>
    g = .ofParts (drawn reg view d c) ∧ ∀ p ∈ cells d c,
      Shown view p ∧ ∀ part ∈ partsAt reg view p, Lit view (source part) := by
  have hcell : ∀ y ∈ sideRange d.height, ∀ z ∈ sideRange d.depth, ∀ x ∈ sideRange d.width,
      Draws (¬ Clear view d c) (fun g => do
          let wx ← checkCoord (c.x * d.width + x)
          let wz ← checkCoord (c.z * d.depth + z)
          buildCell reg view ⟨wx, y, wz⟩ g)
        (partsAt reg view ⟨c.x * d.width + x, y, c.z * d.depth + z⟩)
        (Shown view ⟨c.x * d.width + x, y, c.z * d.depth + z⟩ ∧
          ∀ part ∈ partsAt reg view ⟨c.x * d.width + x, y, c.z * d.depth + z⟩,
            Lit view (source part)) := by
    intro y hy z hz x hx earlier
    have hy := mem_sideRange.1 hy
    have hz := mem_sideRange.1 hz
    have hx := mem_sideRange.1 hx
    have hp : (⟨c.x * d.width + x, y, c.z * d.depth + z⟩ : Pos) ∈ cells d c :=
      mem_cells.2 ⟨by simp only; omega, hy, by simp only; omega⟩
    -- a cell lies between the two that its opposite sides face
    have hfits : Clear view d c →
        FitsCoord (c.x * d.width + x) ∧ FitsCoord (c.z * d.depth + z) := by
      intro hclear
      have hx₁ := (hclear.past _ hp .posX).x
      have hx₂ := (hclear.past _ hp .negX).x
      have hz₁ := (hclear.past _ hp .posZ).z
      have hz₂ := (hclear.past _ hp .negZ).z
      simp only [Pos.past, Face.step, FitsCoord] at hx₁ hx₂ hz₁ hz₂
      exact ⟨⟨by omega, by omega⟩, by omega, by omega⟩
    apply (checkCoord_ensures _ fun hn hclear => hn (hfits hclear).1).bind_eq
    apply (checkCoord_ensures _ fun hn hclear => hn (hfits hclear).2).bind_eq
    exact buildCell_draws hp earlier
  unfold build
  apply (checkCoord_ensures _ fun hn hclear => hn hclear.corner_x).bind_eq
  apply (checkCoord_ensures _ fun hn hclear => hn hclear.corner_z).bind_eq
  -- the three loops go over the cells in their order
  have hloop := Draws.loop (fun y hy => Draws.loop fun z hz => Draws.loop fun x hx =>
    hcell y hy z hz x hx) []
  apply hloop.mono
  rintro g ⟨rfl, hknown⟩
  refine ⟨?_, fun p hp => ?_⟩
  · simp only [drawn, cells, List.flatMap_assoc, List.flatMap_map, List.nil_append]
  · simp only [cells, List.mem_flatMap, List.mem_map] at hp
    obtain ⟨y, hy, z, hz, x, hx, rfl⟩ := hp
    exact hknown y hy z hz x hx

end Mesher

end VoxelWorld
