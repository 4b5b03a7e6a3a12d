import VoxelWorld.Light.Column
import VoxelWorld.Proofs.Light.Guarded

/-!
# Proofs.Light.Safe — what every flood keeps

Floods change a volume by writing levels, and by nothing else. So whatever writing any level
keeps is kept by spreading, retracting and relighting, also while the volume takes light in
more places than before.

* `refresh_ranged` and `refreshColumn_ranged` say how far a column that is lit anew reaches.
* `SafeVolume` asks less of a volume than `VolumeLaws`: light is accepted only in a region, and
  a write there keeps the volume good. Nothing is said of what reading gives.
* `spread_safe`, `retract_safe`, `refreshColumn_safe` and `relight_safe` are the floods.
-/

namespace VoxelWorld

/-- A good volume accepts light in the region `A` only, stops there only under `faulty`, and
stays good when a level is written. -/
structure SafeVolume (V : Type) [LightVolume V] (faulty : Prop) (A : Pos → Prop)
    (Good : V → Prop) : Prop where
  step : ∀ {p d}, A p → d ∈ Light.directions →
    Ensures faulty (Light.step p d) (· = Light.shift p d)
  light : ∀ {vol p}, Good vol → Near A p → ∀ k,
    Ensures faulty (LightVolume.light vol p k) fun _ => True
  block : ∀ {vol p}, Good vol → Near A p → Ensures faulty (LightVolume.block vol p) fun _ => True
  accepts : ∀ {vol p}, Good vol → Near A p →
    Ensures faulty (LightVolume.acceptsLight vol p) fun b => b = true → A p
  setLight : ∀ {vol p}, Good vol → A p → ∀ k v,
    Ensures faulty (LightVolume.setLight vol p k v) Good

/-- Where a flood may stop anywhere, only what writing a level keeps is left to show. -/
theorem SafeVolume.anywhere {V : Type} [LightVolume V] {faulty : Prop} {Good : V → Prop}
    (h : faulty) (hset : ∀ {vol}, Good vol → ∀ p k v,
      Ensures faulty (LightVolume.setLight vol p k v) Good) :
    SafeVolume V faulty (fun _ => True) Good where
  step {p d} _ _ := by
    unfold Light.step Pos.offset
    apply (checkCoord_ensures _ fun _ => h).bind_eq
    apply (checkCoord_ensures _ fun _ => h).bind_eq
    apply (checkCoord_ensures _ fun _ => h).bind_eq
    exact Ensures.pure rfl
  light _ _ _ := Ensures.anyhow h
  block _ _ := Ensures.anyhow h
  accepts _ _ := (Ensures.anyhow h).mono fun _ _ _ => trivial
  setLight hg _ k v := hset hg _ k v

namespace Light

variable {V : Type} [LightVolume V] {faulty : Prop} {A : Pos → Prop} {Good : V → Prop}
  {reg : Registry} {k : LightKind} {vol : V} {p : Pos}

/-! ## Columns within reach -/

/-- How many steps a flood that takes light back may go. -/
def floodReach : Nat := maxLight + (maxLight - 1)

section Ranged

variable {W : Nat → Pos → Prop} {N : Pos → Prop}
  (ranged : ∀ k, RangedVolume V faulty W N A k (fun _ _ => True) Good)

include ranged

/-- A cell that is lit anew asks its neighbours, one step away, and writes its own level. -/
theorem refresh_ranged (h : Good vol) (hp : W 1 p) : Ensures faulty (refresh reg vol p k) Good := by
  have hhere : W 0 p := (ranged k).fewer (Nat.zero_le 1) hp
  have hread : N p := (ranged k).here hhere
  unfold refresh
  apply ((ranged k).block h hread).bind
  intro id _
  refine Ensures.ite (fun _ => ?_) fun _ => (ranged k).setLight h hhere trivial
  apply ((ranged k).light h hread).bind
  intro current _
  -- the neighbours are only read
  have haround : Ensures faulty (brightestAround vol p k) fun _ => True := by
    refine Ensures.foldlM_inv (fun d m hd _ => ?_) trivial
    apply ((ranged k).step hp hd).bind_eq
    apply ((ranged k).light h ((ranged k).beside hp ⟨d, hd, rfl⟩)).bind
    intro v _
    exact Ensures.pure trivial
  apply haround.bind
  intro m _
  exact (ranged k).setLight h hhere trivial

/-- One cell of a column: it is lit, and its new level is spread or its old one taken back. -/
theorem refreshColumnCell_ranged {s : ColumnState V} {x z : Int} {y : Nat}
    {spreading refreshing : Bool} (h : Good s.vol) (hp : W floodReach ⟨x, y, z⟩) :
    Ensures faulty (refreshColumnCell reg x z spreading refreshing s y) fun s' => Good s'.vol := by
  rcases s with ⟨vol, covered⟩
  have hone : W 1 ⟨x, y, z⟩ := (ranged .sky).fewer (by decide) hp
  have hspread : W (maxLight - 1) ⟨x, y, z⟩ := (ranged .sky).fewer (by decide) hp
  have hhere : W 0 ⟨x, y, z⟩ := (ranged .sky).fewer (Nat.zero_le _) hp
  have hread : N ⟨x, y, z⟩ := (ranged .sky).here hhere
  -- once the cell has its new level, the difference is carried on
  have hcarry : ∀ {old : Nat} {covered : Bool} {vol : V}, Good vol → Ensures faulty (do
      let new ← LightVolume.light vol ⟨x, y, z⟩ .sky
      let vol ←
        if spreading then
          if new < old then retract reg vol ⟨x, y, z⟩ .sky old
          else if old < new then spread reg vol ⟨x, y, z⟩ .sky new
          else pure vol
        else pure vol
      return (ColumnState.mk vol covered)) fun s' => Good s'.vol := by
    intro old covered vol hvol
    apply ((ranged .sky).light hvol hread).bind
    intro new _
    have hdone : ∀ {vol : V}, Good vol →
        Ensures faulty (pure (ColumnState.mk vol covered)) fun s' => Good s'.vol :=
      fun hvol => Ensures.pure hvol
    refine Ensures.ite (fun _ => Ensures.ite (fun _ => ?_) fun _ =>
      Ensures.ite (fun _ => ?_) fun _ => ?_) fun _ => ?_
    · exact (retract_ranged (ranged .sky) hvol hp old).bind fun _ hvol' => hdone hvol'
    · exact (spread_ranged (ranged .sky) hvol hspread trivial).bind fun _ hvol' => hdone hvol'
    · exact hdone hvol
    · exact hdone hvol
  -- under open sky the level is the sun's, else it is asked of the neighbours or put out
  unfold refreshColumnCell
  apply ((ranged .sky).block h hread).bind
  intro id _
  apply ((ranged .sky).light h hread).bind
  intro old _
  refine Ensures.ite (fun _ => ?_) fun _ => ?_
  · apply ((ranged .sky).setLight h hhere trivial).bind
    intro vol₁ h₁
    cases refreshing with
    | false => exact hcarry h₁
    | true => exact (refresh_ranged ranged h₁ hone).bind fun _ h₂ => hcarry h₂
  · apply ((ranged .sky).setLight h hhere trivial).bind
    intro vol₁ h₁
    exact hcarry h₁

/-- A column lit anew reaches as far as its cells do, `floodReach` steps at most. -/
theorem refreshColumn_ranged {x z : Int} {spreading refreshing : Bool} (h : Good vol)
    (hp : ∀ y < (LightVolume.height vol).toNat, W floodReach ⟨x, y, z⟩) :
    Ensures faulty (refreshColumn reg vol x z spreading refreshing) Good := by
  unfold refreshColumn
  refine (Ensures.foldlM_inv (I := fun s => Good s.vol) (fun y s hy hs => ?_) h).bind
    fun s hs => Ensures.pure hs
  exact refreshColumnCell_ranged ranged hs (hp y (List.mem_range.1 (List.mem_reverse.1 hy)))

end Ranged

/-! ## Floods -/

variable (safe : SafeVolume V faulty A Good)

include safe

/-- Where nothing is said of levels, each level may be written. -/
theorem guarded_of_safe : GuardedVolume V faulty A A k (fun _ _ => True) Good where
  allowance := ⟨fun _ => trivial, fun _ _ => trivial, fun _ _ => trivial⟩
  walked := id
  step := safe.step
  light hg hp := (safe.light hg hp k).mono fun _ _ _ => trivial
  block := safe.block
  accepts := safe.accepts
  setLight hg hp _ := safe.setLight hg hp k _

/-- Where writes are always good there is no need to count steps. -/
theorem ranged_of_safe (k : LightKind) :
    RangedVolume V faulty (fun _ => A) (Near A) A k (fun _ _ => True) Good :=
  ranged_of_guarded (guarded_of_safe safe)

/-- Spreading any level keeps the volume good. -/
theorem spread_safe (h : Good vol) (hp : A p) (v : Nat) :
    Ensures faulty (spread reg vol p k v) Good :=
  spread_guarded (guarded_of_safe safe) h hp trivial

/-- Taking any level back does so too. -/
theorem retract_safe (h : Good vol) (hp : A p) (v : Nat) :
    Ensures faulty (retract reg vol p k v) Good :=
  retract_guarded (guarded_of_safe safe) h hp v

/-! ## Columns and chunks -/

/-- Lighting a column anew is as safe as the volume it writes to. -/
theorem refreshColumn_safe {x z : Int} {spreading refreshing : Bool} (h : Good vol)
    (hp : ∀ y < (LightVolume.height vol).toNat, A ⟨x, y, z⟩) :
    Ensures faulty (refreshColumn reg vol x z spreading refreshing) Good :=
  refreshColumn_ranged (ranged_of_safe safe) h hp

/-- One cell of a relit chunk spreads what it holds in both channels. -/
theorem relightCell_safe (h : Good vol) (hp : A p) :
    Ensures faulty (relightCell reg p vol) Good := by
  have hnear : Near A p := Near.inside hp
  -- block light comes after sky light, whether or not that was spread
  have hblock : ∀ {b : Bool} {vol : V}, Good vol → Ensures faulty (do
      let level ← LightVolume.light vol p .block
      if (decide (level > 0) && b) = true then spread reg vol p .block level
      else return vol) Good := by
    intro b vol hvol
    apply (safe.light hvol hnear .block).bind
    intro level _
    exact Ensures.ite (fun _ => spread_safe safe hvol hp level) fun _ => Ensures.pure hvol
  unfold relightCell
  apply (safe.block h hnear).bind
  intro id _
  apply (safe.light h hnear .sky).bind
  intro sky _
  refine Ensures.ite (fun _ => ?_) fun _ => hblock h
  exact (spread_safe safe h hp sky).bind fun _ h₁ => hblock h₁

/-- Relighting a chunk keeps the volume good, and stops only where its cells have no coordinates. -/
theorem relight_safe {c : ChunkCoord} {d : Dims} (h : Good vol)
    (hbase : ¬ (FitsCoord (c.x * d.width) ∧ FitsCoord (c.z * d.depth)) → faulty)
    (hcells : ∀ x ∈ sideRange d.width, ∀ z ∈ sideRange d.depth,
      ¬ (FitsCoord (c.x * d.width + x) ∧ FitsCoord (c.z * d.depth + z)) → faulty)
    (hin : ∀ x ∈ sideRange d.width, ∀ z ∈ sideRange d.depth, ∀ y ∈ sideRange d.height,
      A ⟨c.x * d.width + x, y, c.z * d.depth + z⟩) :
    Ensures faulty (relight reg vol c d) Good := by
  unfold relight ChunkCoord.worldX ChunkCoord.worldZ
  apply (checkCoord_ensures _ fun hn => hbase fun h' => hn h'.1).bind_eq
  apply (checkCoord_ensures _ fun hn => hbase fun h' => hn h'.2).bind_eq
  -- one loop for each side, and the same volume is kept good through all of them
  refine Ensures.foldlM_inv (fun x vol hx hvol => ?_) h
  refine Ensures.foldlM_inv (fun z vol hz hvol => ?_) hvol
  refine Ensures.foldlM_inv (fun y vol hy hvol => ?_) hvol
  apply (checkCoord_ensures _ fun hn => hcells x hx z hz fun h' => hn h'.1).bind_eq
  apply (checkCoord_ensures _ fun hn => hcells x hx z hz fun h' => hn h'.2).bind_eq
  exact relightCell_safe safe hvol (hin x hx z hz y hy)

end Light

end VoxelWorld
