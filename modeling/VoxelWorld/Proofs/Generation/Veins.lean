import VoxelWorld.Generation.Ore
import VoxelWorld.Proofs.Generation.Access

/-!
# Proofs.Generation.Veins — where the veins go

* `Ore.generatorBy` is the pass with the two accesses as parameters; with the lenient access it is
  the pass itself (`generatorBy_lenient`).
* With an access that lets stone become ore and nothing else, it stops only where the salt of a vein
  leaves its width (`generatorBy_ensures`), and what it does to a chunk is `Turned`.
-/

namespace VoxelWorld.Ore

variable {d : Dims} {o : Ore} {coord : ChunkCoord} {a b : Access d} {h : UInt32}
  {blocks blocks' blocks'' : BlockArray d} {faulty : Prop} {σ : Type}

/-! ## The pass with its accesses -/

/-- One cell of a vein whose hash is `h`. -/
def placeOneBy (a : Access d) (o : Ore) (h : UInt32) (cx cy cz : Nat) (blocks : BlockArray d)
    (i : Nat) : Checked (BlockArray d) := do
  let step := hashAt o.seed (signedOf h) i 0x51DE
  let x ← stepWithin cx (step &&& 1) d.x
  let y ← stepWithin cy ((step >>> 1) &&& 1) d.y
  let z ← stepWithin cz ((step >>> 2) &&& 1) d.z
  if (← a.read blocks x y z) = o.stone then a.write blocks x y z o.ore else return blocks

/-- One vein. -/
def placeVeinBy (a : Access d) (o : Ore) (coord : ChunkCoord) (blocks : BlockArray d)
    (vein : Nat) : Checked (BlockArray d) := do
  let salt := 0x0AE5 + vein
  if 4294967296 ≤ salt then throw .overflow
  let h := hashAt o.seed coord.x coord.z (UInt32.ofNat salt)
  let cx ← within h d.x
  let cy ← within (h >>> 8) d.y
  let cz ← within (h >>> 16) d.z
  let size := 2 + (h >>> 28).toNat % 4
  (List.range size).foldlM (o.placeOneBy a h cx cy cz) blocks

/-- The pass that places the veins. -/
def generatorBy (a : Access d) (o : Ore) (coord : ChunkCoord) (blocks : BlockArray d) :
    Checked (BlockArray d) :=
  repeatFrom (o.placeVeinBy a coord) o.veins 0 blocks

/-- With the lenient access this is the pass itself. -/
theorem generatorBy_lenient :
    o.generatorBy .lenient coord blocks = o.generator coord d blocks := rfl

/-! ## Less access, fewer runs -/

/-- Rounds that refine each other do so one after the other. -/
theorem repeatFrom_refines {f g : σ → Nat → Checked σ} (h : ∀ s k, Refines (f s k) (g s k))
    (count start : Nat) (s : σ) :
    Refines (repeatFrom f count start s) (repeatFrom g count start s) := by
  induction count generalizing start s with
  | zero => exact Refines.refl
  | succ count ih => exact (h s start).bind fun t => ih (start + 1) t

/-- A cell of a vein is read once and written once at most. -/
theorem placeOneBy_refines (hab : a.Below b) {cx cy cz i : Nat} :
    Refines (o.placeOneBy a h cx cy cz blocks i) (o.placeOneBy b h cx cy cz blocks i) := by
  refine Refines.refl.bind fun x => Refines.refl.bind fun y => Refines.refl.bind fun z => ?_
  refine (hab.read blocks x y z).bind fun id => ?_
  exact Refines.ite (fun _ => hab.write blocks x y z o.ore) fun _ => Refines.refl

/-- A vein of less access does nothing else, if it comes to its end. -/
theorem placeVeinBy_refines (hab : a.Below b) {vein : Nat} :
    Refines (o.placeVeinBy a coord blocks vein) (o.placeVeinBy b coord blocks vein) := by
  unfold placeVeinBy
  refine Refines.ite (fun _ => nofun) fun _ => ?_
  refine Refines.refl.bind fun cx => Refines.refl.bind fun cy => Refines.refl.bind fun cz => ?_
  exact Refines.foldlM (fun _ _ _ => placeOneBy_refines hab) _

/-- The pass of less access does nothing else, if it comes to its end. -/
theorem generatorBy_refines (hab : a.Below b) :
    Refines (o.generatorBy a coord blocks) (o.generatorBy b coord blocks) :=
  repeatFrom_refines (fun _ _ => placeVeinBy_refines hab) _ _ _

/-! ## What the pass does -/

/-- Some stone became ore, and nothing else happened. -/
def Turned (o : Ore) (blocks blocks' : BlockArray d) : Prop :=
  ∀ x y z, blocks'.get x y z = blocks.get x y z ∨
    blocks.get x y z = o.stone ∧ blocks'.get x y z = o.ore

theorem Turned.refl : o.Turned blocks blocks := fun _ _ _ => .inl rfl

theorem Turned.trans (h : o.Turned blocks blocks') (h' : o.Turned blocks' blocks'') :
    o.Turned blocks blocks'' := by
  intro x y z
  rcases h' x y z with heq | ⟨hstone, hore⟩
  · rw [heq]
    exact h x y z
  · -- what is stone in between was stone before, or is ore and stone in one
    rcases h x y z with heq | ⟨hstone', -⟩
    · exact .inr ⟨heq ▸ hstone, hore⟩
    · exact .inr ⟨hstone', hore⟩

/-- One stone becomes ore. -/
theorem turned_set {x y z : Nat} (h : blocks.get x y z = o.stone) :
    o.Turned blocks (blocks.set x y z o.ore) := by
  intro x' y' z'
  rw [BlockArray.get_set]
  split
  · rename_i hc
    obtain ⟨-, rfl, rfl, rfl⟩ := hc
    exact .inr ⟨h, rfl⟩
  · exact .inl rfl

/-- The access that lets stone become ore. -/
def mining (d : Dims) (o : Ore) : Access d :=
  .strict fun old new => old = o.stone ∧ new = o.ore

/-- What each round keeps, all rounds keep. -/
theorem repeatFrom_ensures {f : σ → Nat → Checked σ} {I : σ → Prop} {count start : Nat} {s : σ}
    (hstep : ∀ s k, k < start + count → I s → Ensures faulty (f s k) I) (hs : I s) :
    Ensures faulty (repeatFrom f count start s) I := by
  induction count generalizing start s with
  | zero => exact Ensures.ok hs
  | succ count ih =>
    apply (hstep s start (by omega) hs).bind
    intro t ht
    exact ih (fun s k hk => hstep s k (by omega)) ht

/-- A step stays within the side. -/
theorem stepWithin_ensures {place side : Nat} {bit : UInt32} (hside : 0 < side) :
    Ensures faulty (stepWithin place bit side) (· < side) := by
  have hlast : subSize side 1 = .ok (side - 1) := subSize_eq_ok.2 ⟨hside, rfl⟩
  unfold stepWithin
  rw [hlast]
  refine Ensures.pure (P := (· < side)) ?_
  omega

/-- A place within a side is found by a rest, so that the side is not zero is all it needs. -/
theorem within_ensures {side : Nat} (hpos : 0 < side) (hle : side ≤ 2147483647) :
    Ensures faulty (within h side) fun _ => True := by
  have hrest : side % 4294967296 ≠ 0 := by omega
  unfold within
  simp only [if_neg hrest]
  exact Ensures.ok trivial

/-- A cell of a vein is one of the chunk, and only stone is written over. -/
theorem placeOneBy_ensures (hd : d.Valid) {cx cy cz i : Nat} :
    Ensures faulty (o.placeOneBy (o.mining d) h cx cy cz blocks i) (o.Turned blocks) := by
  unfold placeOneBy
  apply (stepWithin_ensures hd.x_pos).bind
  intro x hx
  apply (stepWithin_ensures hd.y_pos).bind
  intro y hy
  apply (stepWithin_ensures hd.z_pos).bind
  intro z hz
  have hcell : d.Contains x y z := by omega
  apply (Access.read_ensures hcell).bind_eq
  refine Ensures.ite (fun hstone => ?_) fun _ => Ensures.pure Turned.refl
  apply (Access.write_ensures hcell ⟨hstone, rfl⟩).mono
  rintro _ rfl
  exact turned_set hstone

/-- A vein stops only where its number leaves the width of a hash. -/
theorem placeVeinBy_ensures (hd : d.Valid) {vein : Nat}
    (hsalt : 4294967296 ≤ 0x0AE5 + vein → faulty) :
    Ensures faulty (o.placeVeinBy (o.mining d) coord blocks vein) (o.Turned blocks) := by
  unfold placeVeinBy
  refine Ensures.ite (fun h => hsalt h) fun _ => ?_
  apply (within_ensures hd.x_pos hd.x_le).bind
  intro cx _
  apply (within_ensures hd.y_pos hd.y_le).bind
  intro cy _
  apply (within_ensures hd.z_pos hd.z_le).bind
  intro cz _
  refine Ensures.foldlM_inv (fun i b _ hb => ?_) Turned.refl
  exact (placeOneBy_ensures hd).mono fun b' hb' => hb.trans hb'

/-- The pass stays inside the chunk and turns stone into ore; it stops only if there are more veins
than salts. -/
theorem generatorBy_ensures (hd : d.Valid) (hveins : 4294967296 < 0x0AE5 + o.veins → faulty) :
    Ensures faulty (o.generatorBy (o.mining d) coord blocks) (o.Turned blocks) := by
  refine repeatFrom_ensures (fun b vein hvein hb => ?_) Turned.refl
  exact (placeVeinBy_ensures hd fun hsalt => hveins (by omega)).mono fun b' hb' => hb.trans hb'

/-- The pass itself, and the same run seen through the strict access. -/
theorem generator_spec (o : Ore) (hd : d.Valid) (hveins : 0x0AE5 + o.veins ≤ 4294967296)
    (blocks : BlockArray d) : ∃ after, o.generator coord d blocks = .ok after ∧
      o.generatorBy (o.mining d) coord blocks = .ok after ∧ o.Turned blocks after := by
  have hrun : Ensures (4294967296 < 0x0AE5 + o.veins) (o.generatorBy (o.mining d) coord blocks)
      (o.Turned blocks) := generatorBy_ensures hd id
  obtain ⟨after, hstrict, hturned⟩ := hrun.exists_ok (by omega)
  refine ⟨after, ?_, hstrict, hturned⟩
  rw [← generatorBy_lenient]
  exact generatorBy_refines (Access.strict_below hd) after hstrict

/-! ## When the pass comes to an end -/

/-- Rounds that go through whatever came before do so together just if each does. -/
theorem repeatFrom_isOk_iff {f : σ → Nat → Checked σ} {P : Nat → Prop}
    (h : ∀ k s, (∃ t, f s k = .ok t) ↔ P k) (count start : Nat) (s : σ) :
    (∃ t, repeatFrom f count start s = .ok t) ↔ ∀ k, start ≤ k → k < start + count → P k := by
  induction count generalizing start s with
  | zero => exact ⟨fun _ k hk hk' => by omega, fun _ => ⟨s, rfl⟩⟩
  | succ count ih =>
    rw [repeatFrom, Checked.bind_isOk_iff]
    constructor
    · -- a round of the run is the first one or one of the rest
      rintro ⟨t, ht, hrun⟩ k hk hk'
      by_cases heq : k = start
      · rw [heq]
        exact (h start s).1 ⟨t, ht⟩
      · exact (ih (start + 1) t).1 hrun k (by omega) (by omega)
    · intro hall
      obtain ⟨t, ht⟩ := (h start s).2 (hall start (Nat.le_refl start) (by omega))
      exact ⟨t, ht, (ih (start + 1) t).2 fun k hk hk' => hall k (by omega) (by omega)⟩

/-- A vein can be placed just if its number has that width. -/
theorem placeVein_isOk_iff (hd : d.Valid) {vein : Nat} :
    (∃ after, o.placeVein coord blocks vein = .ok after) ↔ 0x0AE5 + vein < 4294967296 := by
  constructor
  · rintro ⟨after, hrun⟩
    unfold placeVein at hrun
    simp only at hrun
    split at hrun
    · cases hrun
    · omega
  · intro hsalt
    have hrun : Ensures False (o.placeVeinBy (o.mining d) coord blocks vein) (o.Turned blocks) :=
      placeVeinBy_ensures hd fun h => absurd h (by omega)
    obtain ⟨after, hstrict, -⟩ := hrun.exists_ok id
    exact ⟨after, placeVeinBy_refines (Access.strict_below hd) after hstrict⟩

/-- There are salts for so many veins and no more. -/
theorem generator_isOk_iff (hd : d.Valid) :
    (∃ after, o.generator coord d blocks = .ok after) ↔ 0x0AE5 + o.veins ≤ 4294967296 := by
  have hsalts := repeatFrom_isOk_iff (f := o.placeVein coord)
    (P := fun vein => 0x0AE5 + vein < 4294967296) (fun vein blocks => placeVein_isOk_iff hd)
    o.veins 0 blocks
  unfold generator
  rw [hsalts]
  constructor
  · intro hall
    rcases Nat.eq_zero_or_pos o.veins with hnone | hsome
    · omega
    · -- the last vein has the largest salt
      have := hall (o.veins - 1) (by omega) (by omega)
      omega
  · intro hle k _ hk
    omega

end VoxelWorld.Ore
