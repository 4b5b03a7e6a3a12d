import Mathlib.Algebra.BigOperators.Group.Finset.Basic
import VoxelWorld.Proofs.Mesh.Drawn
import VoxelWorld.Proofs.Registry

/-!
# Proofs.Mesh.Faces — no holes and no hidden faces

Each of two adjacent cells decides for itself whether it shows its side, and in two chunks it does
so in two meshes. `facesBetween` says how many quads there have to be between two blocks, and
`shared_faces` that there are that many, whatever chunks the two cells are in.

Quads are counted over the cells of all chunks at once (`sum_quadsWhere`), where only the two cells
give any.
-/

namespace VoxelWorld.Mesher

open VoxelWorld.Part (quadsWhere)

variable {V : Type} [VoxelView V] {reg : Registry} {view : V} {d : Dims} {c c' : ChunkCoord}
  {p q : Pos} {f : Face} {R : Finset ChunkCoord} {P : Part → Bool}

/-! ## Between two blocks -/

/-- A block with sides. -/
def IsCube (t : BlockType) : Prop := t.invisible = false ∧ t.isBillboard = false

instance (t : BlockType) : Decidable (IsCube t) := inferInstanceAs (Decidable (_ ∧ _))

/-- The number of quads between two adjacent blocks. -/
def facesBetween (reg : Registry) (a b : BlockId) : Nat :=
  let s := reg.get a
  let t := reg.get b
  if IsCube s ∧ IsCube t ∧ s.translucent = false ∧ t.translucent = false ∨
      IsCube s ∧ s.translucent = true ∧ a = b ∨ ¬ IsCube s ∧ ¬ IsCube t then 0
  else if IsCube s ∧ IsCube t ∧ s.translucent = true ∧ t.translucent = true ∧ a ≠ b then 2
  else 1

/-- A side shows unless a cube hides it: an opaque one, or one of the same block. -/
theorem showsFace_iff {a b : BlockId} : showsFace reg a b = true ↔
    ¬ IsCube (reg.get b) ∨ (reg.get b).translucent = true ∧ b ≠ a := by
  unfold showsFace IsCube
  -- only a block that is neither invisible nor a plant hides anything
  cases hinv : (reg.get b).invisible <;> cases hplant : (reg.get b).isBillboard <;>
    simp [hinv, hplant]

/-- What the two blocks show of themselves adds up. -/
theorem shown_add_shown (reg : Registry) (a b : BlockId) :
    ((if IsCube (reg.get a) ∧ showsFace reg a b = true then 1 else 0) +
      if IsCube (reg.get b) ∧ showsFace reg b a = true then 1 else 0) = facesBetween reg a b := by
  unfold facesBetween
  simp only [showsFace_iff]
  by_cases hab : a = b
  · subst hab
    by_cases hs : IsCube (reg.get a) <;> cases (reg.get a).translucent <;> simp [hs]
  · by_cases hs : IsCube (reg.get a) <;> by_cases ht : IsCube (reg.get b) <;>
      cases (reg.get a).translucent <;> cases (reg.get b).translucent <;>
        simp [hs, ht, hab, Ne.symm hab]

/-! ## Counting -/

/-- The quads of parts that come cell by cell. -/
theorem quadsWhere_flatMap {α : Type} {l : List α} {parts : α → List Part} :
    quadsWhere P (l.flatMap parts) = l.flatMap fun a => quadsWhere P (parts a) := by
  unfold quadsWhere
  rw [List.filter_flatMap, List.flatMap_assoc]

/-- Parts that are not looked for give no quads. -/
theorem quadsWhere_eq_nil {parts : List Part} (h : ∀ part ∈ parts, P part = false) :
    quadsWhere P parts = [] := by
  unfold quadsWhere
  rw [List.filter_eq_nil_iff.2 fun part hpart => by rw [h part hpart]; exact Bool.false_ne_true]
  rfl

/-- If all parts are looked for, all of their quads count. -/
theorem quadsWhere_eq_all {parts : List Part} (h : ∀ part ∈ parts, P part = true) :
    quadsWhere P parts = parts.flatMap Part.quads := by
  unfold quadsWhere
  rw [List.filter_eq_self.2 h]

theorem sideRange_nodup (side : Int) : (sideRange side).Nodup :=
  List.nodup_range.map fun _ _ h => Int.ofNat.inj h

/-- No cell is drawn twice. -/
theorem cells_nodup (d : Dims) (c : ChunkCoord) : (cells d c).Nodup := by
  unfold cells
  refine List.nodup_flatMap.2 ⟨fun y _ => List.nodup_flatMap.2 ⟨fun z _ => ?_, ?_⟩, ?_⟩
  · -- cells of one row differ in `x`, rows of one layer in `z`, and layers in `y`
    refine (sideRange_nodup _).map fun x x' h => ?_
    have := congrArg Pos.x h
    simp only at this
    omega
  · refine (sideRange_nodup _).imp fun {z z'} hne p hp hp' => hne ?_
    obtain ⟨x, _, rfl⟩ := List.mem_map.1 hp
    obtain ⟨x', _, h⟩ := List.mem_map.1 hp'
    have := congrArg Pos.z h
    simp only at this
    omega
  · refine (sideRange_nodup _).imp fun {y y'} hne p hp hp' => hne ?_
    obtain ⟨z, _, hp⟩ := List.mem_flatMap.1 hp
    obtain ⟨x, _, rfl⟩ := List.mem_map.1 hp
    obtain ⟨z', _, hp'⟩ := List.mem_flatMap.1 hp'
    obtain ⟨x', _, h⟩ := List.mem_map.1 hp'
    exact (congrArg Pos.y h).symm

/-- A cell is in one chunk only. -/
theorem chunk_of_cell (h : p ∈ cells d c) (h' : p ∈ cells d c') : c = c' := by
  -- the stretches from one multiple of a side to the next do not overlap
  have hapart : ∀ {a b n w : Int}, a * w ≤ n ∧ n < a * w + w → b * w ≤ n ∧ n < b * w + w →
      ¬ a < b := by
    rintro a b n w ⟨hle, hlt⟩ ⟨hle', -⟩ hab
    have hw : 0 ≤ w := by omega
    have hmul := Int.mul_le_mul_of_nonneg_right (show a + 1 ≤ b by omega) hw
    rw [Int.add_mul, Int.one_mul] at hmul
    omega
  obtain ⟨hx, -, hz⟩ := mem_cells.1 h
  obtain ⟨hx', -, hz'⟩ := mem_cells.1 h'
  have := hapart hx hx'
  have := hapart hx' hx
  have := hapart hz hz'
  have := hapart hz' hz
  rcases c with ⟨cx, cz⟩
  rcases c' with ⟨cx', cz'⟩
  simp only [ChunkCoord.mk.injEq]
  simp only at *
  omega

/-- Only the cells of `S` give any such quads, so only they count. -/
theorem sum_quadsWhere {S : Finset Pos} (hS : ∀ p ∈ S, ∃ c ∈ R, p ∈ cells d c)
    (hout : ∀ p ∉ S, quadsWhere P (partsAt reg view p) = []) :
    ∑ c ∈ R, (quadsWhere P (drawn reg view d c)).length =
      ∑ p ∈ S, (quadsWhere P (partsAt reg view p)).length := by
  classical
  calc ∑ c ∈ R, (quadsWhere P (drawn reg view d c)).length
      = ∑ c ∈ R, ∑ p ∈ (cells d c).toFinset, (quadsWhere P (partsAt reg view p)).length := by
        refine Finset.sum_congr rfl fun c _ => ?_
        rw [List.sum_toFinset _ (cells_nodup d c), drawn, quadsWhere_flatMap, List.length_flatMap]
    _ = ∑ p ∈ R.biUnion fun c => (cells d c).toFinset,
          (quadsWhere P (partsAt reg view p)).length := by
        -- no cell is drawn by two meshes
        refine (Finset.sum_biUnion fun c _ c' _ hne => ?_).symm
        refine Finset.disjoint_left.2 fun p hp hp' => hne ?_
        exact chunk_of_cell (List.mem_toFinset.1 hp) (List.mem_toFinset.1 hp')
    _ = ∑ p ∈ S, (quadsWhere P (partsAt reg view p)).length := by
        refine (Finset.sum_subset (fun p hp => ?_) fun p _ hp => ?_).symm
        · obtain ⟨c, hc, hp⟩ := hS p hp
          exact Finset.mem_biUnion.2 ⟨c, hc, List.mem_toFinset.2 hp⟩
        · rw [hout p hp]
          rfl

/-! ## One cell -/

/-- Of an invisible block there is nothing to draw. -/
theorem partsAt_of_invisible (h : (reg.get (blockSeen view p)).invisible = true) :
    partsAt reg view p = [] := if_pos h

/-- A plant is one part. -/
theorem partsAt_of_plant (h : (reg.get (blockSeen view p)).invisible = false)
    (h' : (reg.get (blockSeen view p)).isBillboard = true) :
    partsAt reg view p = [.plant p (shadeOf (lightSeen view p) 1)] := by
  unfold partsAt
  rw [if_neg (by rw [h]; exact Bool.false_ne_true), if_pos h']

/-- A cube has its sides. -/
theorem partsAt_of_cube (h : IsCube (reg.get (blockSeen view p))) :
    partsAt reg view p = Face.all.flatMap (sideAt reg view p) := by
  unfold partsAt
  rw [if_neg (by rw [h.1]; exact Bool.false_ne_true),
    if_neg (by rw [h.2]; exact Bool.false_ne_true)]

/-- The three kinds of blocks. -/
theorem kinds (t : BlockType) :
    t.invisible = true ∨ (t.invisible = false ∧ t.isBillboard = true) ∨ IsCube t := by
  unfold IsCube
  cases t.invisible <;> cases t.isBillboard <;> simp

/-- A side shows if it is not toward what is below the world and its block shows toward the other.
-/
theorem mem_sideAt {part : Part} : part ∈ sideAt reg view p f ↔
    (0 ≤ (p.past f).y ∧ showsFace reg (blockSeen view p) (blockSeen view (p.past f)) = true) ∧
      part = .side p f (passOf (reg.get (blockSeen view p)))
        (shadeOf (lightSeen view (p.past f)) f.shade) := by
  unfold sideAt
  simp only
  split
  · rename_i h
    rw [List.mem_singleton]
    exact (and_iff_right h).symm
  · rename_i h
    exact ⟨nofun, fun h' => absurd h'.1 h⟩

/-- All parts of a cell say which cell they are of. -/
theorem cell_of_mem_partsAt {part : Part} (h : part ∈ partsAt reg view p) : part.cell = p := by
  rcases kinds (reg.get (blockSeen view p)) with hinv | ⟨hinv, hplant⟩ | hcube
  · rw [partsAt_of_invisible hinv] at h
    cases h
  · rw [partsAt_of_plant hinv hplant] at h
    rw [List.mem_singleton.1 h]
    rfl
  · rw [partsAt_of_cube hcube] at h
    obtain ⟨f, -, h⟩ := List.mem_flatMap.1 h
    rw [(mem_sideAt.1 h).2]
    rfl

/-! ## Two adjacent cells -/

/-- The part lies between two cells. -/
def Between (p q : Pos) : Part → Bool
  | .side r f _ _ => r = p ∧ r.past f = q ∨ r = q ∧ r.past f = p
  | .plant _ _ => false

/-- Which of the two cells comes first plays no part. -/
theorem between_comm (p q : Pos) : Between p q = Between q p := by
  funext part
  cases part with
  | side r f pass color =>
    unfold Between
    simp only [or_comm]
  | plant r color => rfl

/-- The six sides face six positions. -/
theorem past_injective (p : Pos) : Function.Injective p.past := by
  intro f g h
  have hx := congrArg Pos.x h
  have hy := congrArg Pos.y h
  have hz := congrArg Pos.z h
  simp only [Pos.past] at hx hy hz
  cases f <;> cases g <;> simp [Face.step] at hx hy hz ⊢

/-- No side faces its own cell. -/
theorem past_ne (p : Pos) (f : Face) : p.past f ≠ p := by
  intro h
  have hx := congrArg Pos.x h
  have hy := congrArg Pos.y h
  have hz := congrArg Pos.z h
  simp only [Pos.past] at hx hy hz
  cases f <;> simp [Face.step] at hx hy hz

/-- A cell that is past a side of another has a side toward it. -/
theorem exists_past_past (p : Pos) (f : Face) : ∃ g, (p.past f).past g = p := by
  rcases p with ⟨x, y, z⟩
  cases f with
  | posY => exact ⟨.negY, by simp [Pos.past, Face.step]⟩
  | negY => exact ⟨.posY, by simp [Pos.past, Face.step]⟩
  | posX => exact ⟨.negX, by simp [Pos.past, Face.step]⟩
  | negX => exact ⟨.posX, by simp [Pos.past, Face.step]⟩
  | posZ => exact ⟨.negZ, by simp [Pos.past, Face.step]⟩
  | negZ => exact ⟨.posZ, by simp [Pos.past, Face.step]⟩

/-- What a cell shows toward one of the cells beside it. -/
theorem length_quads_toward (reg : Registry) (view : V) (hy : 0 ≤ (p.past f).y) :
    (quadsWhere (Between p (p.past f)) (partsAt reg view p)).length =
      if IsCube (reg.get (blockSeen view p)) ∧
        showsFace reg (blockSeen view p) (blockSeen view (p.past f)) = true then 1 else 0 := by
  -- invisible blocks and plants have no side
  rcases kinds (reg.get (blockSeen view p)) with hinv | ⟨hinv, hplant⟩ | hcube
  · rw [partsAt_of_invisible hinv, if_neg fun h => by rw [h.1.1] at hinv; cases hinv]
    rfl
  · rw [partsAt_of_plant hinv hplant, if_neg fun h => by rw [h.1.2] at hplant; cases hplant]
    rfl
  · -- of the six sides only the one toward the other cell counts
    have hside : ∀ g, quadsWhere (Between p (p.past f)) (sideAt reg view p g) =
        if g = f then (sideAt reg view p f).flatMap Part.quads else [] := by
      intro g
      by_cases hg : g = f
      · subst hg
        rw [if_pos rfl]
        refine quadsWhere_eq_all fun part hpart => ?_
        rw [(mem_sideAt.1 hpart).2]
        exact decide_eq_true (.inl ⟨rfl, rfl⟩)
      · rw [if_neg hg]
        refine quadsWhere_eq_nil fun part hpart => ?_
        rw [(mem_sideAt.1 hpart).2]
        refine decide_eq_false fun h => ?_
        rcases h with ⟨-, h⟩ | ⟨h, -⟩
        · exact hg (past_injective p h)
        · exact past_ne p f h.symm
    have hall : ∀ L : List Quad, (Face.all.flatMap fun g => if g = f then L else []) = L := by
      intro L
      cases f <;> simp [Face.all]
    rw [partsAt_of_cube hcube, quadsWhere_flatMap]
    simp only [hside]
    rw [hall]
    unfold sideAt
    simp only
    by_cases hshows : showsFace reg (blockSeen view p) (blockSeen view (p.past f)) = true
    · rw [if_pos ⟨hy, hshows⟩, if_pos ⟨hcube, hshows⟩]
      rfl
    · rw [if_neg fun h => hshows h.2, if_neg fun h => hshows h.2]
      rfl

/-- All quads between two cells of the chunks. -/
theorem sum_between (hp : ∃ c ∈ R, p ∈ cells d c) (hq : ∃ c ∈ R, p.past f ∈ cells d c) :
    ∑ c ∈ R, (quadsWhere (Between p (p.past f)) (drawn reg view d c)).length =
      facesBetween reg (blockSeen view p) (blockSeen view (p.past f)) := by
  classical
  have hy : ∀ {r}, (∃ c ∈ R, r ∈ cells d c) → 0 ≤ r.y := fun ⟨_, _, hr⟩ => (mem_cells.1 hr).2.1.1
  obtain ⟨g, hg⟩ := exists_past_past p f
  -- seen from the other cell, the same side is one of its own
  have hback : (quadsWhere (Between p (p.past f)) (partsAt reg view (p.past f))).length =
      if IsCube (reg.get (blockSeen view (p.past f))) ∧
        showsFace reg (blockSeen view (p.past f)) (blockSeen view p) = true then 1 else 0 := by
    have htoward : 0 ≤ ((p.past f).past g).y := hg.symm ▸ hy hp
    have hcount := length_quads_toward reg view htoward
    rwa [hg, between_comm] at hcount
  have hne : p ≠ p.past f := (past_ne p f).symm
  rw [sum_quadsWhere (S := {p, p.past f}), Finset.sum_pair hne,
    length_quads_toward reg view (hy hq), hback, shown_add_shown]
  · intro r hr
    rcases Finset.mem_insert.1 hr with rfl | hr
    · exact hp
    · rw [Finset.mem_singleton.1 hr]
      exact hq
  · -- a third cell has no part in it
    intro r hr
    refine quadsWhere_eq_nil fun part hpart => ?_
    have hcell := cell_of_mem_partsAt hpart
    have hout : r ≠ p ∧ r ≠ p.past f := by simpa using hr
    cases part with
    | plant r' color => rfl
    | side r' f' pass color =>
      obtain rfl : r' = r := hcell
      exact decide_eq_false fun h => h.elim (fun h => hout.1 h.1) fun h => hout.2 h.1

/-! ## One mesh for each chunk -/

/-- The quads of one cell in one pass. -/
def OfCell (p : Pos) (pass : Pass) (part : Part) : Bool := part.cell = p ∧ part.pass = pass

/-- All quads of a cell are in the mesh of its chunk. -/
theorem sum_of_cell (hp : ∃ c ∈ R, p ∈ cells d c) (pass : Pass) :
    ∑ c ∈ R, (quadsWhere (OfCell p pass) (drawn reg view d c)).length =
      (quadsWhere (OfCell p pass) (partsAt reg view p)).length := by
  rw [sum_quadsWhere (S := {p}), Finset.sum_singleton]
  · intro r hr
    rw [Finset.mem_singleton.1 hr]
    exact hp
  · intro r hr
    refine quadsWhere_eq_nil fun part hpart => decide_eq_false fun h => ?_
    rw [cell_of_mem_partsAt hpart] at h
    exact hr (Finset.mem_singleton.2 h.1)

/-- A plant has four quads, all of them translucent. -/
theorem length_quads_plant (hinv : (reg.get (blockSeen view p)).invisible = false)
    (hplant : (reg.get (blockSeen view p)).isBillboard = true) (pass : Pass) :
    (quadsWhere (OfCell p pass) (partsAt reg view p)).length =
      if pass = .translucent then 4 else 0 := by
  rw [partsAt_of_plant hinv hplant]
  cases pass with
  | solid =>
    rw [quadsWhere_eq_nil fun part hpart => ?_]
    · rfl
    · rw [List.mem_singleton.1 hpart]
      exact decide_eq_false fun h => by cases h.2
  | translucent =>
    rw [quadsWhere_eq_all fun part hpart => ?_]
    · rfl
    · rw [List.mem_singleton.1 hpart]
      exact decide_eq_true ⟨rfl, rfl⟩

/-- A side that is drawn: of a cell of the chunk, and one that shows. -/
theorem side_of_mem_drawn {pass : Pass} {color : Rgba}
    (h : .side p f pass color ∈ drawn reg view d c) :
    p ∈ cells d c ∧ .side p f pass color ∈ partsAt reg view p ∧ 0 ≤ (p.past f).y ∧
      pass = passOf (reg.get (blockSeen view p)) ∧
      color = shadeOf (lightSeen view (p.past f)) f.shade := by
  obtain ⟨r, hr, h⟩ := List.mem_flatMap.1 h
  obtain rfl : p = r := cell_of_mem_partsAt h
  refine ⟨hr, h, ?_⟩
  rcases kinds (reg.get (blockSeen view p)) with hinv | ⟨hinv, hplant⟩ | hcube
  · rw [partsAt_of_invisible hinv] at h
    cases h
  · rw [partsAt_of_plant hinv hplant] at h
    cases List.mem_singleton.1 h
  · rw [partsAt_of_cube hcube] at h
    obtain ⟨g, -, h⟩ := List.mem_flatMap.1 h
    obtain ⟨⟨hy, -⟩, hpart⟩ := mem_sideAt.1 h
    cases hpart
    exact ⟨hy, rfl, rfl⟩

/-- The sides that show are drawn. -/
theorem side_mem_drawn (hp : p ∈ cells d c) (hcube : IsCube (reg.get (blockSeen view p)))
    (hy : 0 ≤ (p.past f).y)
    (hshows : showsFace reg (blockSeen view p) (blockSeen view (p.past f)) = true) :
    .side p f (passOf (reg.get (blockSeen view p))) (shadeOf (lightSeen view (p.past f)) f.shade) ∈
      drawn reg view d c := by
  refine List.mem_flatMap.2 ⟨p, hp, ?_⟩
  rw [partsAt_of_cube hcube]
  exact List.mem_flatMap.2 ⟨f, by cases f <;> decide, mem_sideAt.2 ⟨⟨hy, hshows⟩, rfl⟩⟩

/-! ## Chunks of one cell -/

/-- Not near the ends of the coordinates. -/
def Inner (c : ChunkCoord) : Prop :=
  (-1073741823 ≤ c.x ∧ c.x ≤ 1073741823) ∧ -1073741823 ≤ c.z ∧ c.z ≤ 1073741823

/-- A chunk of one cell is clear for a view of such a chunk. -/
theorem clear_of_inner {view : Chunk} (hdims : view.dims = ⟨1, 1, 1⟩) (hview : Inner view.coord)
    (hc : Inner c) : Clear view ⟨1, 1, 1⟩ c := by
  obtain ⟨⟨hvx, hvx'⟩, hvz, hvz'⟩ := hview
  obtain ⟨⟨hcx, hcx'⟩, hcz, hcz'⟩ := hc
  have hside : sizeAsCoord 1 = 1 := rfl
  -- a chunk of one cell, so all that is read is one step around it
  have hcells : ∀ p ∈ cells ⟨1, 1, 1⟩ c, p.x = c.x ∧ p.y = 0 ∧ p.z = c.z := by
    intro p hp
    have hp := mem_cells.1 hp
    simp only [Dims.width, Dims.height, Dims.depth, hside] at hp
    omega
  have hpast : ∀ p ∈ cells ⟨1, 1, 1⟩ c, ∀ f,
      (c.x - 1 ≤ (p.past f).x ∧ (p.past f).x ≤ c.x + 1) ∧
      (-1 ≤ (p.past f).y ∧ (p.past f).y ≤ 1) ∧
      c.z - 1 ≤ (p.past f).z ∧ (p.past f).z ≤ c.z + 1 := by
    intro p hp f
    have := hcells p hp
    cases f <;> simp only [Pos.past, Face.step] <;> omega
  have hmet : ∀ p, Met ⟨1, 1, 1⟩ c p →
      (c.x - 1 ≤ p.x ∧ p.x ≤ c.x + 1) ∧ c.z - 1 ≤ p.z ∧ p.z ≤ c.z + 1 := by
    rintro p (hp | ⟨q, hq, f, rfl, -⟩)
    · have := hcells p hp
      omega
    · exact ⟨(hpast q hq f).1, (hpast q hq f).2.2⟩
  -- away from where coordinates end, each sum of the reading fits
  have hlocal : ∀ p, Met ⟨1, 1, 1⟩ c p → ∃ q, view.toLocal p = .ok q := by
    intro p hp
    have := hmet p hp
    refine ⟨⟨p.x - view.coord.x * 1, p.y, p.z - view.coord.z * 1⟩, ?_⟩
    unfold Chunk.toLocal Chunk.worldX Chunk.worldZ ChunkCoord.worldX ChunkCoord.worldZ
    rw [hdims]
    simp only [Dims.width, Dims.depth, hside]
    rw [checkCoord_of_fits ⟨by omega, by omega⟩]
    simp only [bind, Except.bind]
    rw [checkCoord_of_fits ⟨by omega, by omega⟩]
    simp only
    rw [checkCoord_of_fits ⟨by omega, by omega⟩]
    simp only
    rw [checkCoord_of_fits ⟨by omega, by omega⟩]
    rfl
  refine ⟨?_, ?_, fun p hp f => ?_, fun p hp => ?_, fun p hp k => ?_⟩
  · rw [Dims.width, hside]
    omega
  · rw [Dims.depth, hside]
    omega
  · have := hpast p hp f
    exact ⟨by omega, by omega, by omega⟩
  · obtain ⟨q, hq⟩ := hlocal p hp
    exact ⟨_, Checked.bind_eq_ok.2 ⟨q, hq, rfl⟩⟩
  · obtain ⟨q, hq⟩ := hlocal p hp
    exact ⟨_, Checked.bind_eq_ok.2 ⟨q, hq, rfl⟩⟩

/-! ## The meshes of some chunks -/

/-- The meshes of some chunks have together as many quads between two adjacent cells as there have
to be. Each is a side of one of the two cells, in the pass and in the light that belong to it, and
what else there is belongs to plants. Its corners are those of the cell, rounded to single
precision, which leaves the cells up to `2 ^ 24` from the origin as they are. -/
theorem shared_faces (reg : Registry) (view : V) (d : Dims) (R : Finset ChunkCoord) :
    (∀ c ∈ R, Clear view d c → ∃ g, build reg view c d = .ok g) ∧
    ∀ mesh : ChunkCoord → MeshGeometry, (∀ c ∈ R, build reg view c d = .ok (mesh c)) →
      (∀ c ∈ R, mesh c = .ofParts (drawn reg view d c)) ∧
      (∀ p f, (∃ c ∈ R, p ∈ cells d c) → (∃ c ∈ R, p.past f ∈ cells d c) →
        ∃ a b, VoxelView.block view p = .ok a ∧ VoxelView.block view (p.past f) = .ok b ∧
          ∑ c ∈ R, (quadsWhere (Between p (p.past f)) (drawn reg view d c)).length =
            facesBetween reg a b) ∧
      (∀ c ∈ R, ∀ p f pass color, .side p f pass color ∈ drawn reg view d c →
        (∃ a, VoxelView.block view p = .ok a ∧
          (pass = .solid ↔ (reg.get a).translucent = false)) ∧
        (∃ sky lamp, VoxelView.light view (p.past f) .sky = .ok sky ∧
          VoxelView.light view (p.past f) .block = .ok lamp ∧
          color = shadeOf (max sky lamp) f.shade) ∧
        0 ≤ (p.past f).y ∧
        ∃ quad : Quad, (Part.side p f pass color).quads = [quad] ∧
          quad.Covers f (cellCorner p) ∧ (p.Exact → quad.IsSide f p) ∧ quad.color = color) ∧
      ∀ p, (∃ c ∈ R, p ∈ cells d c) → ∃ a, VoxelView.block view p = .ok a ∧
        ((reg.get a).invisible = true → ∀ pass,
          ∑ c ∈ R, (quadsWhere (OfCell p pass) (drawn reg view d c)).length = 0) ∧
        ((reg.get a).invisible = false → (reg.get a).isBillboard = true → ∀ pass,
          ∑ c ∈ R, (quadsWhere (OfCell p pass) (drawn reg view d c)).length =
            if pass = .translucent then 4 else 0) := by
  refine ⟨fun c _ hclear => (build_draws.total).1 hclear, fun mesh hmesh => ?_⟩
  have hdraws : ∀ c ∈ R, mesh c = .ofParts (drawn reg view d c) ∧ ∀ p ∈ cells d c,
      Shown view p ∧ ∀ part ∈ partsAt reg view p, Lit view (source part) :=
    fun c hc => build_draws.of_eq_ok (hmesh c hc)
  have hshown : ∀ {p}, (∃ c ∈ R, p ∈ cells d c) → Shown view p :=
    fun ⟨c, hc, hp⟩ => ((hdraws c hc).2 _ hp).1
  refine ⟨fun c hc => (hdraws c hc).1, fun p f hp hq => ?_, fun c hc p f pass color h => ?_,
    fun p hp => ?_⟩
  · -- the counts between two cells
    exact ⟨_, _, hshown hp, hshown hq, sum_between hp hq⟩
  · -- pass, color and place of each side
    obtain ⟨hp, hpart, hy, hpass, hcolor⟩ := side_of_mem_drawn h
    have hlit : Lit view (p.past f) := ((hdraws c hc).2 p hp).2 _ hpart
    refine ⟨⟨_, hshown ⟨c, hc, hp⟩, ?_⟩, ⟨_, _, hlit .sky, hlit .block, hcolor⟩, hy,
      _, rfl, f.quad_covers _ color, (f.quad_covers _ color).isSide, rfl⟩
    rw [hpass]
    unfold passOf
    cases (reg.get (blockSeen view p)).translucent <;> simp
  · -- cells that draw no sides
    refine ⟨_, hshown hp, fun hinv pass => ?_, fun hinv hplant pass => ?_⟩
    · rw [sum_of_cell hp, partsAt_of_invisible hinv]
      rfl
    · rw [sum_of_cell hp, length_quads_plant hinv hplant]

/-- Two chunks of one cell each, a stone in one of them and nothing in the other, have one quad
between them, and it is the side of the stone. -/
theorem shared_faces_stone :
    let view : Chunk :=
      { coord := ⟨0, 0⟩, dims := ⟨1, 1, 1⟩, blocks := ⟨#[1], rfl⟩, skyLight := ⟨#[15], rfl⟩,
        blockLight := ⟨#[0], rfl⟩, life := .new }
    let R : Finset ChunkCoord := {⟨0, 0⟩, ⟨1, 0⟩}
    (∀ c ∈ R, Clear view ⟨1, 1, 1⟩ c) ∧
      (∀ c ∈ R, ∃ g, build .empty view c ⟨1, 1, 1⟩ = .ok g) ∧
      ∑ c ∈ R, (quadsWhere (Between ⟨0, 0, 0⟩ ⟨1, 0, 0⟩)
        (drawn .empty view ⟨1, 1, 1⟩ c)).length = 1 ∧
      ∀ pass color, .side ⟨0, 0, 0⟩ .posX pass color ∈ drawn .empty view ⟨1, 1, 1⟩ ⟨0, 0⟩ →
        ∃ quad : Quad, (Part.side ⟨0, 0, 0⟩ .posX pass color).quads = [quad] ∧
          quad.IsSide .posX ⟨0, 0, 0⟩ := by
  intro view R
  have hclear : ∀ c ∈ R, Clear view ⟨1, 1, 1⟩ c := by
    intro c hc
    refine clear_of_inner rfl ⟨by decide, by decide⟩ ?_
    rcases Finset.mem_insert.1 hc with rfl | hc
    · exact ⟨by decide, by decide⟩
    · rw [Finset.mem_singleton.1 hc]
      exact ⟨by decide, by decide⟩
  have hall := shared_faces .empty view ⟨1, 1, 1⟩ R
  have hbuild : ∀ c ∈ R, ∃ g, build .empty view c ⟨1, 1, 1⟩ = .ok g :=
    fun c hc => hall.1 c hc (hclear c hc)
  refine ⟨hclear, hbuild, ?_⟩
  have hmesh : ∀ c ∈ R, build .empty view c ⟨1, 1, 1⟩ =
      .ok ((build .empty view c ⟨1, 1, 1⟩).toOption.getD default) := by
    intro c hc
    obtain ⟨g, hg⟩ := hbuild c hc
    rw [hg]
    rfl
  obtain ⟨-, hbetween, hside, -⟩ := hall.2 _ hmesh
  constructor
  · -- the stone on one side shows its face to the air on the other
    obtain ⟨a, b, ha, hb, hsum⟩ := hbetween ⟨0, 0, 0⟩ .posX
      ⟨⟨0, 0⟩, Finset.mem_insert_self _ _, mem_cells.2 (by decide)⟩
      ⟨⟨1, 0⟩, Finset.mem_insert_of_mem (Finset.mem_singleton_self _), mem_cells.2 (by decide)⟩
    obtain rfl : 1 = a := Except.ok.inj ha
    obtain rfl : 0 = b := Except.ok.inj hb
    refine hsum.trans ?_
    unfold facesBetween
    rw [Registry.get_empty, Registry.get_empty]
    rfl
  · intro pass color h
    obtain ⟨-, -, -, quad, hquad, -, hexact, -⟩ :=
      hside ⟨0, 0⟩ (Finset.mem_insert_self _ _) ⟨0, 0, 0⟩ .posX pass color h
    exact ⟨quad, hquad, hexact ⟨by decide, by decide, by decide⟩⟩

/-- A stone in a column further out than `2 ^ 24`: its coordinate is rounded down by one, and adding
one to that gives the same number again. So the quad of its far side lies two cells short of where
the side is. -/
theorem far_side_misplaced :
    let view : Chunk :=
      { coord := ⟨16777217, 0⟩, dims := ⟨1, 1, 1⟩, blocks := ⟨#[1], rfl⟩,
        skyLight := ⟨#[15], rfl⟩, blockLight := ⟨#[0], rfl⟩, life := .new }
    let p : Pos := ⟨16777217, 0, 0⟩
    build .empty view ⟨16777217, 0⟩ ⟨1, 1, 1⟩ =
        .ok (.ofParts (drawn .empty view ⟨1, 1, 1⟩ ⟨16777217, 0⟩)) ∧
      ∃ pass color, .side p .posX pass color ∈ drawn .empty view ⟨1, 1, 1⟩ ⟨16777217, 0⟩ ∧
        ∀ quad ∈ (Part.side p .posX pass color).quads,
          (∀ v ∈ quad.corners, Single.value? v.point.x = some 16777216) ∧
            ¬ quad.IsSide .posX p := by
  intro view p
  have hclear : Clear view ⟨1, 1, 1⟩ ⟨16777217, 0⟩ :=
    clear_of_inner rfl ⟨by decide, by decide⟩ ⟨by decide, by decide⟩
  obtain ⟨g, hg⟩ := (build_draws.total).1 hclear
  have hdraws := build_draws.of_eq_ok hg
  refine ⟨hg.trans (congrArg _ hdraws.1), ?_⟩
  have hblock : blockSeen view p = 1 := rfl
  have hbeside : blockSeen view (p.past .posX) = 0 := rfl
  have hcube : IsCube (Registry.empty.get (blockSeen view p)) := by
    rw [hblock, Registry.get_empty]
    decide
  have hshows : showsFace .empty (blockSeen view p) (blockSeen view (p.past .posX)) = true := by
    rw [hblock, hbeside]
    unfold showsFace
    rw [Registry.get_empty]
    rfl
  refine ⟨_, _, side_mem_drawn (mem_cells.2 (by decide)) hcube (by decide) hshows,
    fun quad hquad => ?_⟩
  have hcovers : quad.Covers .posX (cellCorner p) := by
    rw [List.mem_singleton.1 hquad]
    exact Face.quad_covers _ _ _
  -- both 16777217 and the sum lie halfway between two numbers that have the digits, and go to the
  -- even one
  have hfar : Single.value? (coordToFloat 16777217 + 1) = some 16777216 := by
    show some ((8388608 : ℚ) * 2 ^ (1 : Int)) = some 16777216
    norm_num
  have hpoints : ∀ v ∈ quad.corners, Single.value? v.point.x = some 16777216 := by
    intro v hv
    rw [hcovers.posX_x v hv]
    exact hfar
  refine ⟨hpoints, fun hside => ?_⟩
  obtain ⟨v, hv, hx⟩ := hside.exists_posX
  rw [hpoints v hv] at hx
  exact absurd (Option.some.inj hx) (by norm_num)

end VoxelWorld.Mesher
