import VoxelWorld.Proofs.Light.Volume

/-!
# Proofs.Light.Guarded — floods write no more than they may, and go no further

A flood raises the cells beside a cell to one level less than the cell has, and takes back by
writing zero. What it finds at the border of the dark it spreads at the level found. So if the
levels that may be written fall by no more than one with each step, a flood that starts within them
stays within them.

The waves of a flood are as many as the level has steps. So a flood goes less than `maxLight` steps
from its origin, and one that takes back goes as far as that from each bright cell besides.

* `Allowance` says which levels may be written where.
* `RangedVolume` asks of a volume that writing what is allowed keeps it good, and that the cells
  of its region hold what is allowed. A position of `W n` leaves `n` steps.
* `spread_ranged` and `retract_ranged` are the floods.
* `GuardedVolume` is the case in which every position leaves any number of steps. The walk may start
  at a position outside the region.
-/

namespace VoxelWorld

/-- Which levels may be written where: one step on at least all but the brightest. -/
structure Allowance (allowed : Pos → Nat → Prop) : Prop where
  zero : ∀ p, allowed p 0
  mono : ∀ {p m n}, allowed p n → m ≤ n → allowed p m
  step : ∀ {p q n}, allowed p (n + 1) → Light.Adjacent p q → allowed q n

/-- A good volume stops at the positions `N`, and in a step from a position of `W`, only under
`faulty`. From a position of `W n` there are `n` steps to go. The volume accepts light in `A` only,
where its levels are allowed ones, and stays good when an allowed level is written. -/
structure RangedVolume (V : Type) [LightVolume V] (faulty : Prop) (W : Nat → Pos → Prop)
    (N A : Pos → Prop) (k : LightKind) (allowed : Pos → Nat → Prop) (Good : V → Prop) : Prop where
  allowance : Allowance allowed
  fewer : ∀ {m n p}, m ≤ n → W n p → W m p
  walked : ∀ {n p q}, W (n + 1) p → Light.Adjacent p q → A q → W n q
  here : ∀ {p}, W 0 p → N p
  beside : ∀ {p q}, W 1 p → Light.Adjacent p q → N q
  step : ∀ {p d}, W 1 p → d ∈ Light.directions →
    Ensures faulty (Light.step p d) (· = Light.shift p d)
  light : ∀ {vol p}, Good vol → N p →
    Ensures faulty (LightVolume.light vol p k) fun v => A p → allowed p v
  block : ∀ {vol p}, Good vol → N p → Ensures faulty (LightVolume.block vol p) fun _ => True
  accepts : ∀ {vol p}, Good vol → N p →
    Ensures faulty (LightVolume.acceptsLight vol p) fun b => b = true → A p
  setLight : ∀ {vol p v}, Good vol → W 0 p → allowed p v →
    Ensures faulty (LightVolume.setLight vol p k v) Good

/-- A good volume stops at the positions `W` and beside them only under `faulty`. It accepts light
in `A` only, where its levels are allowed ones, and stays good when an allowed level is written. -/
structure GuardedVolume (V : Type) [LightVolume V] (faulty : Prop) (W A : Pos → Prop)
    (k : LightKind) (allowed : Pos → Nat → Prop) (Good : V → Prop) : Prop where
  allowance : Allowance allowed
  walked : ∀ {p}, A p → W p
  step : ∀ {p d}, W p → d ∈ Light.directions →
    Ensures faulty (Light.step p d) (· = Light.shift p d)
  light : ∀ {vol p}, Good vol → Near W p →
    Ensures faulty (LightVolume.light vol p k) fun v => A p → allowed p v
  block : ∀ {vol p}, Good vol → Near W p → Ensures faulty (LightVolume.block vol p) fun _ => True
  accepts : ∀ {vol p}, Good vol → Near W p →
    Ensures faulty (LightVolume.acceptsLight vol p) fun b => b = true → A p
  setLight : ∀ {vol p v}, Good vol → W p → allowed p v →
    Ensures faulty (LightVolume.setLight vol p k v) Good

namespace Light

variable {V : Type} [LightVolume V] {faulty : Prop} {A : Pos → Prop}
  {allowed : Pos → Nat → Prop} {Good : V → Prop}
  {k : LightKind} {reg : Registry} {vol : V} {p : Pos}

section Ranged

variable {W : Nat → Pos → Prop} {N : Pos → Prop}
  (ranged : RangedVolume V faulty W N A k allowed Good)

/-! ## Spreading -/

/-- A good volume and a wave of cells that may hold the level `t`. -/
def GuardedWave (W : Pos → Prop) (allowed : Pos → Nat → Prop) (Good : V → Prop) (t : Nat)
    (s : Wave V) : Prop :=
  Good s.vol ∧ ∀ q ∈ s.cells, W q ∧ allowed q t

include ranged

/-- Only cells of the region are found to let light in. -/
theorem conducts_ranged (h : Good vol) (hp : N p) :
    Ensures faulty (conducts reg vol p) fun b => b = true → A p := by
  unfold conducts
  apply (ranged.accepts h hp).bind
  intro b hb
  refine Ensures.ite (fun hacc => ?_) fun _ => Ensures.pure nofun
  apply (ranged.block h hp).bind
  intro id _
  exact Ensures.pure fun _ => hb hacc

/-- One neighbour: it may join the wave, with one step fewer to go. -/
theorem raise_ranged {s : Wave V} {t n : Nat} (hs : GuardedWave (W n) allowed Good t s)
    (hp : W (n + 1) p) (hle : allowed p (t + 1)) {d : Int × Int × Int} (hd : d ∈ directions) :
    Ensures faulty (raise reg k t p s d) (GuardedWave (W n) allowed Good t) := by
  have hone : W 1 p := ranged.fewer (Nat.le_add_left 1 n) hp
  have hadj : Adjacent p (shift p d) := ⟨d, hd, rfl⟩
  have hread : N (shift p d) := ranged.beside hone hadj
  have hnext : allowed (shift p d) t := ranged.allowance.step hle hadj
  unfold raise
  apply (ranged.step hone hd).bind_eq
  apply (ranged.light hs.1 hread).bind
  intro v _
  refine Ensures.ite (fun _ => ?_) fun _ => Ensures.pure hs
  apply (conducts_ranged ranged hs.1 hread).bind
  intro b hb
  refine Ensures.ite (fun htrue => ?_) fun _ => Ensures.pure hs
  have hW : W n (shift p d) := ranged.walked hp hadj (hb htrue)
  apply (ranged.setLight hs.1 (ranged.fewer (Nat.zero_le n) hW) hnext).bind
  intro vol' hvol'
  refine Ensures.pure ⟨hvol', fun q hq => ?_⟩
  rcases List.mem_cons.1 hq with rfl | hq
  · exact ⟨hW, hnext⟩
  · exact hs.2 q hq

/-- All neighbours of a cell. -/
theorem raiseAround_ranged {s : Wave V} {t n : Nat} (hs : GuardedWave (W n) allowed Good t s)
    (hp : W (n + 1) p) (hle : allowed p (t + 1)) :
    Ensures faulty (raiseAround reg k t s p) (GuardedWave (W n) allowed Good t) := by
  unfold raiseAround
  apply (ranged.light hs.1 (ranged.here (ranged.fewer (Nat.zero_le _) hp))).bind
  intro v _
  refine Ensures.ite (fun _ => ?_) fun _ => Ensures.pure hs
  exact Ensures.foldlM_inv (fun d s hd hs => raise_ranged ranged hs hp hle hd) hs

/-- A wave to be raised to `t` has that many steps to go. -/
theorem spreadWaves_ranged {t : Nat} {wave : List Pos} (h : Good vol)
    (hw : ∀ q ∈ wave, W t q ∧ allowed q (t + 1)) :
    Ensures faulty (spreadWaves reg k t wave vol) Good := by
  induction t generalizing wave vol with
  | zero => exact Ensures.pure h
  | succ t ih =>
    unfold spreadWaves
    have hstart : GuardedWave (W t) allowed Good (t + 1) ⟨vol, []⟩ := ⟨h, nofun⟩
    refine (Ensures.foldlM_inv (I := GuardedWave (W t) allowed Good (t + 1))
      (fun q s hq hs => raiseAround_ranged ranged hs (hw q hq).1 (hw q hq).2) hstart).bind
      fun s hs => ?_
    exact ih hs.1 fun q hq => hs.2 q (List.mem_reverse.1 hq)

/-- Spreading a level that is allowed at its origin. -/
theorem spread_ranged (h : Good vol) (hp : W (maxLight - 1) p) {v : Nat}
    (hv : allowed p (min v maxLight)) : Ensures faulty (spread reg vol p k v) Good := by
  unfold spread
  split
  · exact Ensures.pure h
  · rename_i t heq
    rw [heq] at hv
    have hle : t ≤ maxLight - 1 := by omega
    apply (ranged.setLight h (ranged.fewer (Nat.zero_le _) hp) hv).bind
    intro vol' hvol'
    refine spreadWaves_ranged ranged hvol' fun q hq => ?_
    rw [List.mem_singleton.1 hq]
    exact ⟨ranged.fewer hle hp, hv⟩

/-! ## Retracting -/

omit ranged in
/-- A good volume, a wave at walked positions and bright cells inside the region. -/
def GuardedRetraction (W A : Pos → Prop) (Good : V → Prop) (s : Retraction V) : Prop :=
  Good s.vol ∧ (∀ q ∈ s.cells, W q) ∧ ∀ q ∈ s.bright, A q

/-- Each bright cell leaves the steps of a flood of its own. -/
theorem darken_ranged {s : Retraction V} {t n m : Nat}
    (hs : GuardedRetraction (W n) (fun q => A q ∧ W m q) Good s) (hmn : m ≤ n) (hp : W (n + 1) p)
    {d : Int × Int × Int} (hd : d ∈ directions) : Ensures faulty (darken reg k t p s d)
      (GuardedRetraction (W n) (fun q => A q ∧ W m q) Good) := by
  rcases hs with ⟨hgood, hcells, hbright⟩
  have hone : W 1 p := ranged.fewer (Nat.le_add_left 1 n) hp
  have hadj : Adjacent p (shift p d) := ⟨d, hd, rfl⟩
  have hread : N (shift p d) := ranged.beside hone hadj
  unfold darken
  apply (ranged.step hone hd).bind_eq
  apply (ranged.accepts hgood hread).bind
  intro b hb
  refine Ensures.ite (fun hacc => ?_) fun _ => Ensures.pure ⟨hgood, hcells, hbright⟩
  have hA : A (shift p d) := hb hacc
  have hW : W n (shift p d) := ranged.walked hp hadj hA
  apply (ranged.light hgood hread).bind
  intro v _
  refine Ensures.ite (fun _ => ?_) fun _ => ?_
  · -- a bright cell is noted, once
    refine Ensures.ite (fun _ => Ensures.pure ⟨hgood, hcells, hbright⟩) fun _ => ?_
    refine Ensures.pure ⟨hgood, hcells, fun q hq => ?_⟩
    rcases List.mem_cons.1 hq with rfl | hq
    · exact ⟨hA, ranged.fewer hmn hW⟩
    · exact hbright q hq
  · refine Ensures.ite (fun _ => Ensures.pure ⟨hgood, hcells, hbright⟩) fun _ => ?_
    apply (ranged.block hgood hread).bind
    intro id _
    refine Ensures.ite (fun _ => ?_) fun _ => Ensures.pure ⟨hgood, hcells, hbright⟩
    apply (ranged.setLight hgood (ranged.fewer (Nat.zero_le n) hW) (ranged.allowance.zero _)).bind
    intro vol' hvol'
    refine Ensures.pure ⟨hvol', fun q hq => ?_, hbright⟩
    rcases List.mem_cons.1 hq with rfl | hq
    · exact hW
    · exact hcells q hq

theorem retractWaves_ranged {t m : Nat} {wave bright : List Pos} (h : Good vol)
    (hw : ∀ q ∈ wave, W (t + m) q) (hb : ∀ q ∈ bright, A q ∧ W m q) :
    Ensures faulty (retractWaves reg k t wave bright vol) fun r =>
      Good r.1 ∧ ∀ q ∈ r.2, A q ∧ W m q := by
  -- each wave is one step further on and has one step fewer to go
  induction t generalizing wave bright vol with
  | zero => exact Ensures.pure ⟨h, hb⟩
  | succ t ih =>
    have hw' : ∀ q ∈ wave, W (t + m + 1) q := by
      intro q hq
      rw [Nat.add_right_comm]
      exact hw q hq
    unfold retractWaves
    have hstart : GuardedRetraction (W (t + m)) (fun q => A q ∧ W m q) Good ⟨vol, [], bright⟩ :=
      ⟨h, nofun, hb⟩
    refine (Ensures.foldlM_inv (I := GuardedRetraction (W (t + m)) (fun q => A q ∧ W m q) Good)
      (fun q s hq hs => ?_) hstart).bind fun s hs => ?_
    · unfold darkenAround
      exact Ensures.foldlM_inv (fun d s hd hs =>
        darken_ranged ranged hs (Nat.le_add_left m t) (hw' q hq) hd) hs
    · exact ih hs.1 (fun q hq => hs.2.1 q (List.mem_reverse.1 hq)) hs.2.2

/-- Taking back any level, whether or not there was such a source. -/
theorem retract_ranged (h : Good vol) (hp : W (maxLight + (maxLight - 1)) p) (v : Nat) :
    Ensures faulty (retract reg vol p k v) Good := by
  unfold retract
  apply (ranged.setLight h (ranged.fewer (Nat.zero_le _) hp) (ranged.allowance.zero p)).bind
  intro vol₁ h₁
  have hwave : ∀ q ∈ [p], W (min v maxLight + (maxLight - 1)) q := by
    intro q hq
    rw [List.mem_singleton.1 hq]
    exact ranged.fewer (Nat.add_le_add_right (Nat.min_le_right ..) _) hp
  apply (retractWaves_ranged ranged h₁ hwave fun q hq => absurd hq List.not_mem_nil).bind
  rintro ⟨vol₂, bright⟩ ⟨h₂, hbright⟩
  refine Ensures.foldlM_inv (fun q vol hq hvol => ?_) h₂
  have hq := hbright q (List.mem_reverse.1 hq)
  unfold respread
  apply (ranged.light hvol (ranged.here (ranged.fewer (Nat.zero_le _) hq.2))).bind
  intro v hv
  -- a bright cell holds a level that is allowed there
  exact spread_ranged ranged hvol hq.2 (ranged.allowance.mono (hv hq.1) (Nat.min_le_left ..))

end Ranged

/-! ## Floods that may go on -/

section Guarded

variable {W : Pos → Prop} (guarded : GuardedVolume V faulty W A k allowed Good)

include guarded

/-- Where every step stays within the guarded positions, any number may follow. -/
theorem ranged_of_guarded :
    RangedVolume V faulty (fun _ => W) (Near W) A k allowed Good where
  allowance := guarded.allowance
  fewer _ hp := hp
  walked _ _ hA := guarded.walked hA
  here := Near.inside
  beside := Near.beside
  step := guarded.step
  light := guarded.light
  block := guarded.block
  accepts := guarded.accepts
  setLight := guarded.setLight

/-- Spreading an allowed level keeps a guarded volume good. -/
theorem spread_guarded (h : Good vol) (hp : W p) {v : Nat} (hv : allowed p (min v maxLight)) :
    Ensures faulty (spread reg vol p k v) Good :=
  spread_ranged (ranged_of_guarded guarded) h hp hv

/-- Taking back keeps it good whatever the level. -/
theorem retract_guarded (h : Good vol) (hp : W p) (v : Nat) :
    Ensures faulty (retract reg vol p k v) Good :=
  retract_ranged (ranged_of_guarded guarded) h hp v

end Guarded

end Light

end VoxelWorld
