import VoxelWorld.Proofs.Light.Column

/-!
# Proofs.Light.Sky — what is open to the sky

* A cell is `OpenToSky` if no block from it up to the top of its column covers the sky, and
  `skylight` is the level that the sky gives to it by itself.
* `Swept` are the levels on the way down a column: each cell gets the full level where it is
  open, and is computed from the cells around it elsewhere. `refreshColumn_ensures` says that
  refreshing a column comes to such levels.
* `seedColumn_ensures` does so for a new chunk, where nothing is spread: the column holds what
  the sky gives (`seededFrom`).
-/

namespace VoxelWorld

/-- No block from the cell up to the height `h` covers the sky. -/
def LightField.OpenToSky (reg : Registry) (f : LightField) (h : Int) (p : Pos) : Prop :=
  ∀ y, p.y ≤ y → y < h → (reg.get (f.block ⟨p.x, y, p.z⟩)).coversSky = false

open Classical in
/-- The level that a cell gets from the sky by itself. -/
noncomputable def LightField.skylight (reg : Registry) (f : LightField) (h : Int) (p : Pos) : Nat :=
  if f.OpenToSky reg h p then maxLight else 0

namespace LightField

variable {reg : Registry} {f g : LightField} {h : Int} {p : Pos}

theorem skylight_of_open (hopen : f.OpenToSky reg h p) : f.skylight reg h p = maxLight :=
  if_pos hopen

theorem skylight_of_covered (hcov : ¬ f.OpenToSky reg h p) : f.skylight reg h p = 0 :=
  if_neg hcov

theorem skylight_eq_maxLight : f.skylight reg h p = maxLight ↔ f.OpenToSky reg h p := by
  refine ⟨fun heq => ?_, skylight_of_open⟩
  by_contra hcov
  rw [skylight_of_covered hcov] at heq
  exact absurd heq (by decide)

/-- Going down one cell. -/
theorem openToSky_step {x z : Int} {y : Nat} (hy : (y : Int) < h) :
    f.OpenToSky reg h ⟨x, y, z⟩ ↔ f.OpenToSky reg h ⟨x, ((y + 1 : Nat) : Int), z⟩ ∧
      (reg.get (f.block ⟨x, y, z⟩)).coversSky = false := by
  constructor
  · intro hopen
    refine ⟨fun y' hle hlt => hopen y' ?_ hlt, hopen y le_rfl hy⟩
    simp only at hle ⊢
    omega
  · rintro ⟨habove, hhere⟩ y' hle hlt
    simp only at hle
    by_cases heq : y' = y
    · rw [heq]
      exact hhere
    · refine habove y' ?_ hlt
      simp only
      omega

theorem openToSky_top {x z : Int} : f.OpenToSky reg h ⟨x, h.toNat, z⟩ := by
  intro y hle hlt
  simp only at hle
  omega

/-- An open cell has no block that covers the sky. -/
theorem OpenToSky.self (hopen : f.OpenToSky reg h p) (hy : p.y < h) :
    (reg.get (f.block p)).coversSky = false := hopen p.y le_rfl hy

end LightField

namespace Light

variable {V : Type} [LightVolume V] {faulty : Prop} {A : Pos → Prop} {Good : V → Prop}
  (laws : VolumeLaws V faulty A Good) {reg : Registry} {f : LightField} {L : Levels} {vol : V}
  {x z : Int}

/-- The flag of a column says whether the cell above is open. -/
def Covers (reg : Registry) (f : LightField) (h x z : Int) (n : Nat) (covered : Bool) : Prop :=
  covered = false ↔ f.OpenToSky reg h ⟨x, n, z⟩

/-- One cell further down, its own block may cover the sky too. -/
theorem Covers.step {h : Int} {y : Nat} {covered : Bool} (hy : y < h.toNat)
    (hc : Covers reg f h x z (y + 1) covered) :
    Covers reg f h x z y (covered || (reg.get (f.block ⟨x, y, z⟩)).coversSky) := by
  unfold Covers at hc ⊢
  rw [LightField.openToSky_step (by omega), Bool.or_eq_false_iff, hc]

/-- The levels that refreshing a column leaves once the cells from a level up are done. -/
inductive Swept (reg : Registry) (f : LightField) (A : Pos → Prop) (h x z : Int)
    (L₀ : Levels) : Nat → Levels → Prop
  | top : Swept reg f A h x z L₀ h.toNat L₀
  /-- The next lower cell got its level, and the difference was carried on. -/
  | cell {y v : Nat} {L L' : Levels} : Swept reg f A h x z L₀ (y + 1) L → y < h.toNat →
      (∀ q, L q ≤ maxLight) → (∀ q, L' q ≤ maxLight) →
      Relevelled A (f.Conducts reg) L ⟨x, y, z⟩ v L' →
      (f.OpenToSky reg h ⟨x, y, z⟩ → v = maxLight) →
      (¬ f.OpenToSky reg h ⟨x, y, z⟩ →
        Refreshed (f.Conducts reg) (Function.update L ⟨x, y, z⟩ 0) ⟨x, y, z⟩ v) →
      Swept reg f A h x z L₀ y L'

include laws in
/-- One column is brought up to date from the top down. -/
theorem refreshColumn_ensures (hshow : Shows Good f .sky vol L)
    (hcol : ∀ y : Nat, y < (LightVolume.height vol).toNat → A ⟨x, y, z⟩) :
    Ensures faulty (refreshColumn reg vol x z true true) fun vol' => ∃ L',
      Shows Good f .sky vol' L' ∧ Swept reg f A (LightVolume.height vol) x z L 0 L' := by
  unfold refreshColumn
  refine (foldColumn_ensures (I := fun n s => ∃ L', Shows Good f .sky s.vol L' ∧
      Covers reg f (LightVolume.height vol) x z n s.covered ∧
      Swept reg f A (LightVolume.height vol) x z L n L') ?_ ?_).bind ?_
  · intro y s hy hs
    rcases hs with ⟨L₁, hshow₁, hcov, hswept⟩
    apply (refreshColumnCell_ensures laws hshow₁ (hcol y hy)).mono
    intro s' hs'
    rcases hs' with ⟨hcov', v, L', hshow', hlev, hopen, hcovered⟩
    -- the flag goes on to say whether the sky is open
    have hc : Covers reg f (LightVolume.height vol) x z y s'.covered := by
      rw [hcov']
      exact hcov.step hy
    refine ⟨L', hshow', hc, hswept.cell hy (hshow₁.level_le laws) (hshow'.level_le laws) hlev
      ?_ ?_⟩
    · intro ho
      exact hopen (hc.2 ho)
    · intro ho
      apply hcovered
      rw [← Bool.not_eq_false]
      intro hf
      exact ho (hc.1 hf)
  · -- above the top the sky is open, and no cell has had its turn
    exact ⟨L, hshow, ⟨fun _ => LightField.openToSky_top, fun _ => rfl⟩, .top⟩
  · intro s hs
    rcases hs with ⟨L', hshow', -, hswept⟩
    exact Ensures.pure ⟨L', hshow', hswept⟩

/-! ## New chunks -/

/-- The cells of a column from a level up. -/
def InColumn (h x z : Int) (n : Nat) (q : Pos) : Prop := q.x = x ∧ q.z = z ∧ n ≤ q.y ∧ q.y < h

open Classical in
/-- The levels once the cells of a column from a level up have what the sky gives to them. -/
noncomputable def seededFrom (reg : Registry) (f : LightField) (h x z : Int) (L : Levels)
    (n : Nat) : Levels :=
  fun q => if InColumn h x z n q then f.skylight reg h q else L q

section SeededFrom

variable {h : Int} {n : Nat} {q : Pos}

theorem seededFrom_of_in (hq : InColumn h x z n q) :
    seededFrom reg f h x z L n q = f.skylight reg h q := if_pos hq

theorem seededFrom_of_not_in (hq : ¬ InColumn h x z n q) :
    seededFrom reg f h x z L n q = L q := if_neg hq

theorem seededFrom_top : seededFrom reg f h x z L h.toNat = L := by
  funext q
  apply seededFrom_of_not_in
  rintro ⟨_, _, hle, hlt⟩
  omega

/-- The next lower cell joins the part of the column that is done. -/
theorem update_seededFrom {y : Nat} (hy : y < h.toNat) :
    Function.update (seededFrom reg f h x z L (y + 1)) ⟨x, y, z⟩ (f.skylight reg h ⟨x, y, z⟩) =
      seededFrom reg f h x z L y := by
  funext q
  by_cases hq : q = ⟨x, y, z⟩
  · subst hq
    have hin : InColumn h x z y ⟨x, y, z⟩ := ⟨rfl, rfl, le_rfl, by simp only; omega⟩
    rw [Function.update_self, seededFrom_of_in hin]
  · rw [Function.update_of_ne hq]
    by_cases hin : InColumn h x z (y + 1) q
    · rcases hin with ⟨hx, hz, hle, hlt⟩
      rw [seededFrom_of_in ⟨hx, hz, hle, hlt⟩, seededFrom_of_in ⟨hx, hz, by omega, hlt⟩]
    · rw [seededFrom_of_not_in hin, seededFrom_of_not_in]
      rintro ⟨hx, hz, hle, hlt⟩
      -- a cell that only now belongs to the column is the one that was written
      have hyq : q.y = y := by
        by_contra hne
        exact hin ⟨hx, hz, by omega, hlt⟩
      apply hq
      rcases q with ⟨qx, qy, qz⟩
      simp only at hx hz hyq
      rw [hx, hz, hyq]

end SeededFrom

/-- What the flag of the cell makes of it is what the sky gives. -/
theorem Covers.skylight_eq {h : Int} {y : Nat} {covered : Bool}
    (hc : Covers reg f h x z y covered) :
    (if covered then 0 else maxLight) = f.skylight reg h ⟨x, y, z⟩ := by
  cases covered with
  | false =>
    rw [LightField.skylight_of_open (hc.1 rfl)]
    rfl
  | true =>
    rw [LightField.skylight_of_covered fun ho => Bool.true_eq_false.mp (hc.2 ho)]
    rfl

include laws in
/-- One column of a new chunk: each cell gets what the sky gives to it. -/
theorem seedColumn_ensures (hshow : Shows Good f .sky vol L)
    (hcol : ∀ y : Nat, y < (LightVolume.height vol).toNat → A ⟨x, y, z⟩) :
    Ensures faulty (refreshColumn reg vol x z false false) fun vol' =>
      Shows Good f .sky vol' (seededFrom reg f (LightVolume.height vol) x z L 0) := by
  unfold refreshColumn
  refine (foldColumn_ensures (I := fun n s =>
      Covers reg f (LightVolume.height vol) x z n s.covered ∧
      Shows Good f .sky s.vol (seededFrom reg f (LightVolume.height vol) x z L n))
    ?_ ?_).bind ?_
  · intro y s hy hs
    rcases hs with ⟨hcov, hshow⟩
    apply (seedColumnCell_ensures laws hshow (hcol y hy)).mono
    intro s' hs'
    rcases hs' with ⟨hcov', hshow'⟩
    have hc : Covers reg f (LightVolume.height vol) x z y s'.covered := by
      rw [hcov']
      exact hcov.step hy
    -- the flag tells whether the sky is open here, so it decides the level
    refine ⟨hc, ?_⟩
    rwa [hc.skylight_eq, update_seededFrom hy] at hshow'
  · refine ⟨⟨fun _ => LightField.openToSky_top, fun _ => rfl⟩, ?_⟩
    rw [seededFrom_top]
    exact hshow
  · intro s hs
    rcases hs with ⟨-, hshow'⟩
    exact Ensures.pure hshow'

end Light

end VoxelWorld
