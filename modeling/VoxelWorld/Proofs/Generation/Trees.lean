import VoxelWorld.Block.Builtin
import VoxelWorld.Proofs.Generation.Veins

/-!
# Proofs.Generation.Trees — where trees and plants grow

The forest pass reads the chunk that it is changing: leaves hang over columns that come later, and
crowns reach into each other.

* `Forest.generatorBy` is the pass with the two accesses as parameters; with the lenient access it
  is the pass itself (`generatorBy_lenient`).
* With an access that writes over air and nothing else it does not stop (`generatorBy_ensures`). So
  what was no air is as it was (`Overgrown`), whatever grew in between.
* `passes_stay_inside` puts the two passes together.
-/

namespace VoxelWorld

namespace Forest

variable {d : Dims} {f : Forest} {coord : ChunkCoord} {a b : Access d} {h : UInt32}
  {blocks blocks' blocks'' : BlockArray d} {faulty : Prop} {x z ground top : Nat}

/-! ## The pass with its accesses -/

/-- The highest cell below `y` that is not air. -/
def surfaceBelowBy (a : Access d) (blocks : BlockArray d) (x z : Nat) : Nat → Checked (Option Nat)
  | 0 => return none
  | y + 1 => do
    if (← a.read blocks x y z) ≠ air then return some y else surfaceBelowBy a blocks x z y

/-- Leaves in one layer of a crown, where there is air. -/
def placeLeavesBy (a : Access d) (f : Forest) (x z top : Nat) (blocks : BlockArray d) (y : Nat) :
    Checked (BlockArray d) := do
  let r := if y > top then leafRadius - 1 else leafRadius
  let rows ← around z r
  rows.foldlM (fun blocks lz => do
    let columns ← around x r
    columns.foldlM (fun blocks lx => do
      if (← a.read blocks lx y lz) = air then a.write blocks lx y lz f.leaves else return blocks)
      blocks) blocks

/-- A tree on the cell `(x, ground, z)`, if it stays below the top of the chunk. -/
def placeTreeBy (a : Access d) (f : Forest) (x ground z : Nat) (h : UInt32)
    (blocks : BlockArray d) : Checked (BlockArray d) := do
  let trunk := 4 + (h >>> 20).toNat % 3
  let top := ground + trunk
  if d.y ≤ top + 2 then return blocks
  let blocks ← (List.range' (ground + 1) trunk).foldlM (fun blocks y =>
    a.write blocks x y z f.log) blocks
  let lowest ← subSize top 1
  (List.range' lowest 3).foldlM (f.placeLeavesBy a x z top) blocks

/-- What grows on one column. -/
def plantColumnBy (a : Access d) (f : Forest) (baseX baseZ : Int) (z : Nat)
    (blocks : BlockArray d) (x : Nat) : Checked (BlockArray d) := do
  match ← surfaceBelowBy a blocks x z d.y with
  | none => return blocks
  | some ground =>
    if (← a.read blocks x ground z) ≠ f.grass ∨ d.y ≤ ground + 1 then return blocks
    let wx ← checkCoord (baseX + sizeAsCoord x)
    let wz ← checkCoord (baseZ + sizeAsCoord z)
    let h := hashAt f.seed wx wz 0xF0E5
    let roll := unitOf h
    if isInner d x z && roll < f.params.treeChance then
      f.placeTreeBy a x ground z h blocks
    else if roll < f.params.treeChance + f.params.grassChance then
      if (← a.read blocks x (ground + 1) z) = air then
        a.write blocks x (ground + 1) z (if h &&& 0xF = 0 then f.flower else f.tallGrass)
      else return blocks
    else return blocks

/-- The pass that plants a chunk. -/
def generatorBy (a : Access d) (f : Forest) (coord : ChunkCoord) (blocks : BlockArray d) :
    Checked (BlockArray d) := do
  let baseX ← coord.worldX d
  let baseZ ← coord.worldZ d
  (List.range d.z).foldlM (fun blocks z =>
    (List.range d.x).foldlM (f.plantColumnBy a baseX baseZ z) blocks) blocks

/-- With the lenient access the surface is the one that is looked for. -/
theorem surfaceBelowBy_lenient (y : Nat) :
    surfaceBelowBy .lenient blocks x z y = .ok (surfaceBelow blocks x z y) := by
  induction y with
  | zero => rfl
  | succ y ih =>
    rw [surfaceBelow]
    show (if blockAt blocks x y z ≠ air then Except.ok (some y) else _) = _
    rw [ih]
    split <;> rfl

/-- A layer of leaves under full access is the one of the pass. -/
theorem placeLeavesBy_lenient :
    f.placeLeavesBy (.lenient : Access d) x z top = f.placeLeaves x z top := by
  have hcell : ∀ lz y : Nat, (fun (blocks : BlockArray d) lx => do
      if (← Access.lenient.read blocks lx y lz) = air then
        Access.lenient.write blocks lx y lz f.leaves
      else return blocks) = fun blocks lx => (pure (if blockAt blocks lx y lz = air then
        putAt blocks lx y lz f.leaves else blocks) : Checked (BlockArray d)) := by
    intro lz y
    funext blocks lx
    show ite _ _ _ = Except.ok _
    split <;> rfl
  funext blocks y
  unfold placeLeavesBy placeLeaves
  simp only [hcell, List.foldlM_pure]

/-- A tree under full access is the one of the pass: the height of its trunk is no less than one,
and the subtraction goes through. -/
theorem placeTreeBy_lenient :
    f.placeTreeBy .lenient x ground z h blocks = f.placeTree x ground z h blocks := by
  have htop : subSize (ground + (4 + (h >>> 20).toNat % 3)) 1 =
      .ok (ground + (4 + (h >>> 20).toNat % 3) - 1) := subSize_eq_ok.2 ⟨by omega, rfl⟩
  unfold placeTreeBy placeTree
  simp only [placeLeavesBy_lenient, htop]
  split
  · rfl
  · show (List.foldlM (fun blocks y => pure (putAt blocks x y z f.log)) _ _ >>= _) = _
    rw [List.foldlM_pure]
    rfl

/-- What grows on a column under full access is what the pass plants. -/
theorem plantColumnBy_lenient {baseX baseZ : Int} :
    f.plantColumnBy (.lenient : Access d) baseX baseZ z = f.plantColumn baseX baseZ z := by
  funext blocks x
  unfold plantColumnBy plantColumn surface
  rw [surfaceBelowBy_lenient]
  cases surfaceBelow blocks x z d.y with
  | none => rfl
  | some ground =>
    simp only [placeTreeBy_lenient]
    refine ite_congr rfl (fun _ => rfl) fun _ => ?_
    refine bind_congr fun wx => bind_congr fun wz => ?_
    refine ite_congr rfl (fun _ => rfl) fun _ => ?_
    -- the cell above the ground is looked at only if something may grow there
    by_cases hroll :
        unitOf (hashAt f.seed wx wz 0xF0E5) < f.params.treeChance + f.params.grassChance
    · rw [if_pos hroll, decide_eq_true hroll, Bool.true_and]
      simp only [decide_eq_true_eq]
      rfl
    · rw [if_neg hroll, decide_eq_false hroll, Bool.false_and]
      rfl

/-- The whole pass under full access is the one of the generator. -/
theorem generatorBy_lenient :
    f.generatorBy .lenient coord blocks = f.generator coord d blocks := by
  unfold generatorBy generator
  simp only [plantColumnBy_lenient]

/-! ## Less access, fewer runs -/

/-- Less access finds the same surface or none. -/
theorem surfaceBelowBy_refines (hab : a.Below b) (y : Nat) :
    Refines (surfaceBelowBy a blocks x z y) (surfaceBelowBy b blocks x z y) := by
  induction y with
  | zero => exact Refines.refl
  | succ y ih =>
    refine (hab.read blocks x y z).bind fun id => ?_
    exact Refines.ite (fun _ => Refines.refl) fun _ => ih

/-- It places the same leaves or stops. -/
theorem placeLeavesBy_refines (hab : a.Below b) {y : Nat} :
    Refines (f.placeLeavesBy a x z top blocks y) (f.placeLeavesBy b x z top blocks y) := by
  refine Refines.refl.bind fun rows => Refines.foldlM (fun lz _ blocks => ?_) _
  refine Refines.refl.bind fun columns => Refines.foldlM (fun lx _ blocks => ?_) _
  refine (hab.read blocks lx y lz).bind fun id => ?_
  exact Refines.ite (fun _ => hab.write _ _ _ _ _) fun _ => Refines.refl

/-- A tree of less access is the same, if it comes to its end. -/
theorem placeTreeBy_refines (hab : a.Below b) :
    Refines (f.placeTreeBy a x ground z h blocks) (f.placeTreeBy b x ground z h blocks) := by
  refine Refines.ite (fun _ => Refines.refl) fun _ => ?_
  refine (Refines.foldlM (fun y _ blocks => hab.write blocks x y z f.log) _).bind fun blocks => ?_
  refine Refines.refl.bind fun lowest => Refines.foldlM (fun y _ blocks => ?_) _
  exact placeLeavesBy_refines hab

/-- A column of less access is planted in the same way, if that comes to its end. -/
theorem plantColumnBy_refines (hab : a.Below b) {baseX baseZ : Int} :
    Refines (f.plantColumnBy a baseX baseZ z blocks x)
      (f.plantColumnBy b baseX baseZ z blocks x) := by
  refine (surfaceBelowBy_refines hab d.y).bind fun found => ?_
  cases found with
  | none => exact Refines.refl
  | some ground =>
    refine (hab.read blocks x ground z).bind fun id => ?_
    refine Refines.ite (fun _ => Refines.refl) fun _ => ?_
    refine Refines.refl.bind fun wx => Refines.refl.bind fun wz => ?_
    refine Refines.ite (fun _ => placeTreeBy_refines hab) fun _ => ?_
    refine Refines.ite (fun _ => ?_) fun _ => Refines.refl
    refine (hab.read blocks x (ground + 1) z).bind fun above => ?_
    exact Refines.ite (fun _ => hab.write _ _ _ _ _) fun _ => Refines.refl

/-- The pass of less access plants the same, if it comes to its end. -/
theorem generatorBy_refines (hab : a.Below b) :
    Refines (f.generatorBy a coord blocks) (f.generatorBy b coord blocks) := by
  refine Refines.refl.bind fun baseX => Refines.refl.bind fun baseZ => ?_
  refine Refines.foldlM (fun z _ blocks => Refines.foldlM (fun x _ blocks => ?_) blocks) blocks
  exact plantColumnBy_refines hab

/-! ## What the pass does -/

/-- What was no air is as it was. -/
def Overgrown (blocks blocks' : BlockArray d) : Prop :=
  ∀ x y z, blocks.get x y z ≠ air → blocks'.get x y z = blocks.get x y z

theorem Overgrown.refl : Overgrown blocks blocks := fun _ _ _ _ => rfl

theorem Overgrown.trans (h : Overgrown blocks blocks') (h' : Overgrown blocks' blocks'') :
    Overgrown blocks blocks'' := by
  intro x y z hne
  rw [h' x y z (h x y z hne ▸ hne), h x y z hne]

/-- Writing over air leaves what was no air. -/
theorem overgrown_set {y : Nat} {id : BlockId} (hair : blocks.get x y z = air) :
    Overgrown blocks (blocks.set x y z id) := by
  intro x' y' z' hne
  rw [BlockArray.get_set, if_neg]
  rintro ⟨-, rfl, rfl, rfl⟩
  exact hne hair

/-- The access that writes over air. -/
def planting (d : Dims) : Access d := .strict fun old _ => old = air

/-- A block in a cell that holds air. -/
theorem plant_ensures {y : Nat} {id : BlockId} (hc : d.Contains x y z)
    (hair : blocks.get x y z = air) :
    Ensures faulty ((planting d).write blocks x y z id) fun blocks' =>
      blocks' = blocks.set x y z id ∧ Overgrown blocks blocks' := by
  have hwrite : Ensures faulty ((planting d).write blocks x y z id) (· = blocks.set x y z id) :=
    Access.write_ensures hc hair
  apply hwrite.mono
  rintro _ rfl
  exact ⟨rfl, overgrown_set hair⟩

/-- Above the surface there is air. -/
theorem surfaceBelowBy_ensures (hx : x < d.x) (hz : z < d.z) {n : Nat} (hn : n ≤ d.y) :
    Ensures faulty (surfaceBelowBy (planting d) blocks x z n) fun found =>
      ∀ ground ∈ found, ground < n ∧ ∀ y : Nat, ground < y → y < n → blocks.get x y z = air := by
  induction n with
  | zero => exact Ensures.pure nofun
  | succ n ih =>
    have hcell : d.Contains x n z := by omega
    apply (Access.read_ensures hcell).bind_eq
    refine Ensures.ite (fun _ => Ensures.pure ?_) fun hair => ?_
    · rintro ground ⟨⟩
      exact ⟨Nat.lt_succ_self n, fun y hy hy' => by omega⟩
    · apply (ih (by omega)).mono
      intro found hfound ground hground
      obtain ⟨hlt, habove⟩ := hfound ground hground
      refine ⟨by omega, fun y hy hy' => ?_⟩
      -- the cell was air, or the search would have ended there
      by_cases hyn : y = n
      · rw [hyn]
        exact Decidable.not_not.1 hair
      · exact habove y hy (by omega)

/-- The places around one that is far enough from zero. -/
theorem around_ensures {n r : Nat} (h : r ≤ n) :
    Ensures faulty (around n r) fun l => ∀ m ∈ l, m ≤ n + r := by
  have hlo : subSize n r = .ok (n - r) := subSize_eq_ok.2 ⟨h, rfl⟩
  unfold around
  rw [hlo]
  refine Ensures.pure (P := fun l => ∀ m ∈ l, m ≤ n + r) fun m hm => ?_
  have := List.mem_range'_1.1 hm
  omega

/-- An inner column is two away from every border, as far as leaves go. -/
theorem isInner_iff : isInner d x z = true ↔ (2 ≤ x ∧ x + 2 < d.x) ∧ 2 ≤ z ∧ z + 2 < d.z := by
  unfold isInner leafRadius
  simp only [Bool.and_eq_true, decide_eq_true_eq]
  omega

/-- Leaves stay within the chunk around an inner column, and only take the place of air. -/
theorem placeLeavesBy_ensures (hinner : isInner d x z = true) {y : Nat} (hy : y < d.y) :
    Ensures faulty (f.placeLeavesBy (planting d) x z top blocks y) (Overgrown blocks) := by
  obtain ⟨⟨hx, hx'⟩, hz, hz'⟩ := isInner_iff.1 hinner
  -- an inner column has two cells on each side, and leaves reach no further
  have hr : (if y > top then leafRadius - 1 else leafRadius) ≤ 2 := by
    unfold leafRadius
    split <;> omega
  unfold placeLeavesBy
  apply (around_ensures (by omega)).bind
  intro rows hrows
  refine Ensures.foldlM_inv (fun lz b hlz hb => ?_) Overgrown.refl
  apply (around_ensures (by omega)).bind
  intro columns hcolumns
  refine Ensures.foldlM_inv (fun lx b hlx hb => ?_) hb
  have hrow := hrows lz hlz
  have hcolumn := hcolumns lx hlx
  have hcell : d.Contains lx y lz := by omega
  apply (Access.read_ensures hcell).bind_eq
  refine Ensures.ite (fun hair => ?_) fun _ => Ensures.pure hb
  exact (plant_ensures hcell hair).mono fun b' hb' => hb.trans hb'.2

/-- The trunk goes up through air, for each cell of it is another one. -/
theorem trunk_ensures (hx : x < d.x) (hz : z < d.z) {ys : List Nat} {id : BlockId}
    (hys : ys.Nodup) (hair : ∀ y ∈ ys, y < d.y ∧ blocks.get x y z = air) :
    Ensures faulty (ys.foldlM (fun blocks y => (planting d).write blocks x y z id) blocks)
      (Overgrown blocks) := by
  refine (Ensures.foldlM (I := fun rest b => rest.Nodup ∧
    (∀ y ∈ rest, y < d.y ∧ b.get x y z = air) ∧ Overgrown blocks b) ?_
    ⟨hys, hair, Overgrown.refl⟩).mono fun b hb => hb.2.2
  rintro y rest b - ⟨hnodup, hfree, hb⟩
  obtain ⟨hy, hyair⟩ := hfree y List.mem_cons_self
  have hcell : d.Contains x y z := by omega
  apply (plant_ensures hcell hyair).mono
  rintro _ ⟨rfl, hset⟩
  refine ⟨hnodup.of_cons, fun y' hy' => ?_, hb.trans hset⟩
  obtain ⟨hlt, hair'⟩ := hfree y' (List.mem_cons_of_mem y hy')
  refine ⟨hlt, ?_⟩
  rw [BlockArray.get_set, if_neg]
  · exact hair'
  · rintro ⟨-, -, heq, -⟩
    exact (List.nodup_cons.1 hnodup).1 (Int.ofNat_inj.1 heq ▸ hy')

/-- A tree that stands under air leaves what was no air as it was. -/
theorem placeTreeBy_ensures (hinner : isInner d x z = true)
    (habove : ∀ y : Nat, ground < y → y < d.y → blocks.get x y z = air) :
    Ensures faulty (f.placeTreeBy (planting d) x ground z h blocks) (Overgrown blocks) := by
  obtain ⟨⟨hx, hx'⟩, hz, hz'⟩ := isInner_iff.1 hinner
  unfold placeTreeBy
  refine Ensures.ite (fun _ => Ensures.pure Overgrown.refl) fun hroom => ?_
  refine (trunk_ensures (by omega) (by omega) List.nodup_range' fun y hy => ?_).bind fun b hb => ?_
  · have := List.mem_range'_1.1 hy
    exact ⟨by omega, habove y (by omega) (by omega)⟩
  · -- the crown begins one below the top of the trunk
    have hlowest : ∀ n : Nat, subSize (ground + (4 + n)) 1 = .ok (ground + (4 + n) - 1) :=
      fun n => subSize_eq_ok.2 ⟨by omega, rfl⟩
    rw [hlowest]
    refine Ensures.foldlM_inv (fun y b' hy hb' => ?_) hb
    have := List.mem_range'_1.1 hy
    exact (placeLeavesBy_ensures hinner (by omega)).mono fun b'' hb'' => hb'.trans hb''

/-- Whatever grows on a column takes the place of air. -/
theorem plantColumnBy_ensures (hd : d.Valid) (hc : Charted d coord) (hx : x < d.x) (hz : z < d.z) :
    Ensures faulty (f.plantColumnBy (planting d) (coord.x * d.x) (coord.z * d.z) z blocks x)
      (Overgrown blocks) := by
  unfold plantColumnBy
  apply (surfaceBelowBy_ensures hx hz (Nat.le_refl d.y)).bind
  intro found hfound
  -- above the surface there is nothing but air
  cases found with
  | none => exact Ensures.pure Overgrown.refl
  | some ground =>
    obtain ⟨hground, habove⟩ := hfound ground rfl
    have hcell : d.Contains x ground z := by omega
    apply (Access.read_ensures hcell).bind_eq
    refine Ensures.ite (fun _ => Ensures.pure Overgrown.refl) fun hgrass => ?_
    have hroom : ground + 1 < d.y := by omega
    rw [hc.checkX hd hx, hc.checkZ hd hz]
    refine Ensures.ite (fun hinner => ?_) fun _ => ?_
    · exact placeTreeBy_ensures (Bool.and_eq_true_iff.1 hinner).1 habove
    · refine Ensures.ite (fun _ => ?_) fun _ => Ensures.pure Overgrown.refl
      have hnext : d.Contains x (ground + 1 : Nat) z := by omega
      apply (Access.read_ensures hnext).bind_eq
      refine Ensures.ite (fun hair => ?_) fun _ => Ensures.pure Overgrown.refl
      exact (plant_ensures hnext hair).mono fun b hb => hb.2

/-- The pass stays inside the chunk, writes over air only, and does not stop. -/
theorem generatorBy_ensures (hd : d.Valid) (hc : Charted d coord) :
    Ensures faulty (f.generatorBy (planting d) coord blocks) (Overgrown blocks) := by
  unfold generatorBy
  rw [hc.worldX hd, hc.worldZ hd]
  refine Ensures.foldlM_inv (fun z b hz hb => ?_) Overgrown.refl
  refine Ensures.foldlM_inv (fun x b hx hb => ?_) hb
  refine (plantColumnBy_ensures hd hc ?_ ?_).mono fun b' hb' => hb.trans hb'
  · exact List.mem_range.1 hx
  · exact List.mem_range.1 hz

/-- The pass itself, and the same run seen through the strict access. -/
theorem generator_spec (f : Forest) (hd : d.Valid) (hc : Charted d coord)
    (blocks : BlockArray d) : ∃ after, f.generator coord d blocks = .ok after ∧
      f.generatorBy (planting d) coord blocks = .ok after ∧ Overgrown blocks after := by
  have hrun : Ensures False (f.generatorBy (planting d) coord blocks) (Overgrown blocks) :=
    generatorBy_ensures hd hc
  obtain ⟨after, hstrict, hgrown⟩ := hrun.exists_ok id
  refine ⟨after, ?_, hstrict, hgrown⟩
  rw [← generatorBy_lenient]
  exact generatorBy_refines (Access.strict_below hd) after hstrict

end Forest

/-- The two passes over what was there before, given by their accesses to cells. Neither stops where
only cells may be looked at and written, and where only stone may be written over with ore, or only
air with anything. So ore takes the place of stone alone, and what was no air outlives the
forest. -/
theorem passes_stay_inside (d : Dims) (hd : d.Valid) (c : ChunkCoord) (hc : Charted d c)
    (seed : Int) (params : TerrainParams) (hveins : params.oreVeins < 4294967296 - 0x0AE5)
    (reg : Registry) (blocks : BlockArray d) :
    let o := Ore.new seed params.oreVeins reg
    let f := Forest.new seed params reg
    (∀ blocks : BlockArray d, o.generatorBy .lenient c blocks = o.generator c d blocks) ∧
    (∀ blocks : BlockArray d, f.generatorBy .lenient c blocks = f.generator c d blocks) ∧
    (∃ after, o.generator c d blocks = .ok after ∧
      o.generatorBy (.strict fun old new => old = o.stone ∧ new = o.ore) c blocks = .ok after ∧
      ∀ x y z, after.get x y z = blocks.get x y z ∨
        blocks.get x y z = o.stone ∧ after.get x y z = o.ore) ∧
    ∃ after, f.generator c d blocks = .ok after ∧
      f.generatorBy (.strict fun old _ => old = air) c blocks = .ok after ∧
      ∀ x y z, blocks.get x y z ≠ air → after.get x y z = blocks.get x y z := by
  intro o f
  have hsalts : 0x0AE5 + o.veins ≤ 4294967296 := by
    show 0x0AE5 + params.oreVeins ≤ 4294967296
    omega
  exact ⟨fun _ => Ore.generatorBy_lenient, fun _ => Forest.generatorBy_lenient,
    Ore.generator_spec o hd hsalts blocks, Forest.generator_spec f hd hc blocks⟩

/-- Solid rock at the end of the coordinates. -/
theorem passes_stay_inside_rock :
    let rock : BlockArray .standard := ⟨Array.replicate 32768 1, Array.size_replicate⟩
    let c : ChunkCoord := ⟨134217727, -134217728⟩
    Charted .standard c ∧
    (∃ after, (Ore.new 7 6 .builtin).generator c .standard rock = .ok after ∧
      (after.get 3 4 5 = 1 ∨ after.get 3 4 5 = (Ore.new 7 6 .builtin).ore)) ∧
    ∃ after, (Forest.new 7 {} .builtin).generator c .standard rock = .ok after ∧
      after.get 3 4 5 = 1 := by
  intro rock c
  have hd : Dims.standard.Valid :=
    ⟨by decide, by decide, by decide, by decide, by decide, by decide⟩
  have hc : Charted .standard c := ⟨by decide, by decide⟩
  have hstone : rock.get 3 4 5 = 1 := by
    have hindex : Dims.standard.index? 3 4 5 = some 1107 := by decide
    unfold BlockArray.get
    rw [BlockArray.get?_eq, hindex]
    simp only [rock, Option.bind_some, Array.getElem?_replicate]
    rfl
  -- at a corner of the world, where every sum is close to its width
  obtain ⟨-, -, ⟨mined, hmined, -, hturned⟩, planted, hplanted, -, hkept⟩ :=
    passes_stay_inside .standard hd c hc 7 {} (by decide) .builtin rock
  refine ⟨hc, ⟨mined, hmined, ?_⟩, planted, hplanted, ?_⟩
  · rcases hturned 3 4 5 with heq | ⟨-, hore⟩
    · exact .inl (heq.trans hstone)
    · exact .inr hore
  · rw [hkept 3 4 5 (by rw [hstone]; decide), hstone]

end VoxelWorld
