import VoxelWorld.Proofs.Light.Still

/-!
# Proofs.Light.Sunlight — sky light on its way to the light from scratch

* `Sunlit` is the state of sky light in a region some parts of which are still hot: it stands
  still but for these, open cells are bright, and all light comes from open cells.
* Spreading keeps it and cools a part down (`Sunlit.grown`).
* An edit goes down its column. `SunlitDown` is what holds once the cells from a level up are
  done: the cells below still count as open if they were before, and the edited cell counts
  as open whatever light it has. `SunlitDown.step` is the step from one cell to the next, and
  `Sunlit.swept` the whole column.
* Without hot cells the levels are the light from scratch (`Sunlit.eq_brightest`).
-/

namespace VoxelWorld.Light

variable {reg : Registry} {f g : LightField} {A Hot Hot' : Pos → Prop} {h : Int} {L L' : Levels}
  {p : Pos}

/-- The cells of the region that are open to the sky. -/
def OpenIn (reg : Registry) (f : LightField) (A : Pos → Prop) (h : Int) (q : Pos) : Prop :=
  A q ∧ f.OpenToSky reg h q

/-- The state of sky light. -/
structure Sunlit (reg : Registry) (f : LightField) (A : Pos → Prop) (h : Int)
    (Hot : Pos → Prop) (L : Levels) : Prop extends Still reg f A Hot L where
  dark : ∀ q, ¬ A q → q.y < h → L q = 0
  bright : ∀ q, OpenIn reg f A h q → L q = maxLight
  supported : Supported A (f.Conducts reg) (OpenIn reg f A h) L

/-- An open cell of the region lets light in. -/
theorem OpenIn.conducts {q : Pos} (hq : OpenIn reg f A h q) (hthrough : SkyThrough reg)
    (hA : ∀ q, f.accepts q = true ↔ A q) (hy : q.y < h) : f.Conducts reg q :=
  ⟨(hA q).2 hq.1, hthrough _ (hq.2.self hy)⟩

namespace Sunlit

/-- The levels of the field itself play no part. -/
theorem congr (hs : Sunlit reg f A h Hot L) (hacc : g.accepts = f.accepts)
    (hblock : g.block = f.block) : Sunlit reg g A h Hot L := by
  have hC : g.Conducts reg = f.Conducts reg := LightField.conducts_congr hacc hblock
  have hopen : OpenIn reg g A h = OpenIn reg f A h := by
    unfold OpenIn LightField.OpenToSky
    rw [hblock]
  refine ⟨hs.toStill.congr hacc hblock, hs.dark, ?_, ?_⟩
  · rw [hopen]
    exact hs.bright
  · rw [hC, hopen]
    exact hs.supported

/-- Spreading keeps the state, and what it evened out is no longer hot. -/
theorem grown (hs : Sunlit reg f A h Hot L) (hA : ∀ q, f.accepts q = true ↔ A q)
    (hg : Grown A (f.Conducts reg) L L') (hle : ∀ q, L' q ≤ maxLight)
    (hcool : ∀ a, A a → f.Conducts reg a → Hot a → Hot' a ∨ Even (f.Conducts reg) L' a) :
    Sunlit reg f A h Hot' L' where
  toStill := hs.toStill.grown hg hcool
  dark q hq hy := by
    have hC : ¬ f.Conducts reg q := fun hC => hq ((hA q).1 hC.1)
    rw [hg.eq_of_not hC]
    exact hs.dark q hq hy
  bright q hq := by
    have hmono := hg.mono q
    rw [hs.bright q hq] at hmono
    exact Nat.le_antisymm (hle q) hmono
  supported := hg.supported hs.supported

/-- Without hot cells the levels are the light from scratch. -/
theorem eq_brightest (hs : Sunlit reg f A h (fun _ => False) L) (hthrough : SkyThrough reg)
    (hA : ∀ q, f.accepts q = true ↔ A q) (hheight : ∀ q, A q → q.y < h)
    (hle : ∀ q, L q ≤ maxLight) {given : Levels}
    (hopen : ∀ q, OpenIn reg f A h q → given q = maxLight)
    (hcovered : ∀ q, ¬ OpenIn reg f A h q → given q = 0) (hp : A p) :
    L p = brightest (f.Conducts reg) given p := by
  -- the open cells are the sources
  refine Light.eq_brightest (S := OpenIn reg f A h) ?_ hle ?_ hs.supported ?_ hp
  · intro q
    by_cases hq : OpenIn reg f A h q
    · rw [hopen q hq, hs.bright q hq]
    · rw [hcovered q hq]
      exact Nat.zero_le _
  · intro q hq
    rw [hopen q hq]
    exact hle q
  · intro q hq b hsteep
    have hC : f.Conducts reg q := by
      rcases hq with hpos | hC
      · by_cases hq : OpenIn reg f A h q
        · exact hq.conducts hthrough hA (hheight q hq.1)
        · rw [hcovered q hq] at hpos
          exact absurd hpos (lt_irrefl 0)
      · exact hC
    exact hs.steep q b ((hA q).1 hC.1) hC hsteep

end Sunlit

/-! ## Down a column -/

/-- The cells that count as open once the column of `p` is done from level `n` up: below, those
that were open under the old blocks `f`, and the edited cell. -/
def OpenDown (reg : Registry) (f g : LightField) (A : Pos → Prop) (h : Int) (p : Pos) (n : Nat)
    (q : Pos) : Prop :=
  A q ∧ ((q.x = p.x ∧ q.z = p.z ∧ q.y < n → f.OpenToSky reg h q ∨ q = p) ∧
    (¬ (q.x = p.x ∧ q.z = p.z ∧ q.y < n) → g.OpenToSky reg h q))

/-- The light and its sources once the column of `p` is done from level `n` up. -/
structure SunlitDown (reg : Registry) (f g : LightField) (A : Pos → Prop) (h : Int) (p : Pos)
    (n : Nat) (L : Levels) : Prop where
  dark : ∀ q, ¬ A q → q.y < h → L q = 0
  bright : ∀ q, OpenDown reg f g A h p n q → q ≠ p ∨ n ≤ p.y → L q = maxLight
  supported : Supported A (g.Conducts reg) (OpenDown reg f g A h p n) L

/-- Outside the region there is light only above the top. So a cell that is not at the top got its
level from inside. -/
theorem Refreshed.fed_inside {C : Pos → Prop} {v : Nat}
    (href : Refreshed C (Function.update L p 0) p v) (hdark : ∀ q, ¬ A q → q.y < h → L q = 0)
    (hpos : 0 < v) (hbelow : C p → p.y + 1 < h) :
    C p ∧ ∃ n, Adjacent p n ∧ A n ∧ v < L n := by
  have hC : C p := by
    by_contra hno
    have hzero := href.dark hno
    omega
  rcases href.fed hpos with heq | ⟨n, hadj, hn⟩
  · rw [Function.update_self] at heq
    omega
  · rw [Function.update_of_ne hadj.ne.symm] at hn
    refine ⟨hC, n, hadj, ?_, by omega⟩
    by_contra hno
    have hny := hadj.y_le
    have hzero := hdark n hno (by have := hbelow hC; omega)
    omega

/-- A top cell that is covered covers the sky itself. -/
theorem coversSky_of_covered_top {x y z : Int} (hy : y + 1 = h)
    (hcov : ¬ g.OpenToSky reg h ⟨x, y, z⟩) : (reg.get (g.block ⟨x, y, z⟩)).coversSky = true := by
  by_contra hno
  refine hcov fun y' hle hlt => ?_
  have hle' : y ≤ y' := hle
  rw [show y' = y by omega]
  exact Bool.not_eq_true _ ▸ hno

/-- The cell at the top of the column covers the sky only if it stops light. -/
def ClearTop (reg : Registry) (g : LightField) (h : Int) (p : Pos) : Prop :=
  ∀ y, y + 1 = h → (reg.get (g.block ⟨p.x, y, p.z⟩)).coversSky = true →
    reg.isTranslucent (g.block ⟨p.x, y, p.z⟩) = false

section Edit

variable (hA : ∀ q, f.accepts q = true ↔ A q) (hacc : g.accepts = f.accepts)
  (hsame : ∀ q, q ≠ p → g.block q = f.block q) (hheight : ∀ q, A q → q.y < h)

include hsame in
/-- Only cells of the column, up to the edited one, can open or close. -/
theorem openToSky_iff_of_edit {q : Pos} (hq : ¬ (q.x = p.x ∧ q.z = p.z ∧ q.y ≤ p.y)) :
    g.OpenToSky reg h q ↔ f.OpenToSky reg h q := by
  have hblock : ∀ y, q.y ≤ y → g.block ⟨q.x, y, q.z⟩ = f.block ⟨q.x, y, q.z⟩ := by
    intro y hle
    refine hsame _ ?_
    intro heq
    apply hq
    rw [← heq]
    exact ⟨rfl, rfl, hle⟩
  unfold LightField.OpenToSky
  constructor
  · intro hopen y hle hlt
    rw [← hblock y hle]
    exact hopen y hle hlt
  · intro hopen y hle hlt
    rw [hblock y hle]
    exact hopen y hle hlt

include hacc hsame hheight in
/-- Before the first cell of the column. -/
theorem Sunlit.down (hs : Sunlit reg f A h Hot L) (hp : A p) :
    SunlitDown reg f g A h p h.toNat L := by
  have hbelow : ∀ q, A q → q.x = p.x ∧ q.z = p.z → q.x = p.x ∧ q.z = p.z ∧ q.y < h.toNat := by
    intro q hq hcol
    have := hheight q hq
    exact ⟨hcol.1, hcol.2, by omega⟩
  have hpy := hheight p hp
  -- what is open stays among the cells that count as open
  have hopen : ∀ q, OpenIn reg f A h q → OpenDown reg f g A h p h.toNat q := by
    intro q hq
    refine ⟨hq.1, fun _ => .inl hq.2, fun hcol => ?_⟩
    rw [openToSky_iff_of_edit hsame fun hin => hcol (hbelow q hq.1 ⟨hin.1, hin.2.1⟩)]
    exact hq.2
  refine ⟨hs.dark, ?_, ?_⟩
  · intro q hq hqp
    have hne : q ≠ p := by
      rcases hqp with hne | hle
      · exact hne
      · omega
    refine hs.bright q ⟨hq.1, ?_⟩
    by_cases hcol : q.x = p.x ∧ q.z = p.z ∧ q.y < h.toNat
    · exact (hq.2.1 hcol).resolve_right hne
    · rw [← openToSky_iff_of_edit hsame fun hin => hcol (hbelow q hq.1 ⟨hin.1, hin.2.1⟩)]
      exact hq.2.2 hcol
  · -- every source but the edited cell is one of before
    intro q hq hpos
    by_cases hqp : q = p
    · rw [hqp]
      exact .inl ⟨hp, fun _ => .inr rfl, fun hcol => absurd (hbelow p hp ⟨rfl, rfl⟩) hcol⟩
    · rcases hs.supported q hq hpos with hsource | ⟨hC, hfed⟩
      · exact .inl (hopen q hsource)
      · exact .inr ⟨(LightField.conducts_iff_of_edit hacc hsame hqp).2 hC, hfed⟩

/-- A cell counts as open or not as before until it has its turn. -/
theorem openDown_step {y : Nat} {q : Pos} (hq : q ≠ ⟨p.x, y, p.z⟩) :
    OpenDown reg f g A h p y q ↔ OpenDown reg f g A h p (y + 1) q := by
  have hiff : (q.x = p.x ∧ q.z = p.z ∧ q.y < (y : Nat)) ↔
      (q.x = p.x ∧ q.z = p.z ∧ q.y < (y + 1 : Nat)) := by
    constructor
    · intro hcol
      exact ⟨hcol.1, hcol.2.1, by omega⟩
    · intro hcol
      refine ⟨hcol.1, hcol.2.1, ?_⟩
      by_contra hge
      apply hq
      rcases q with ⟨qx, qy, qz⟩
      rcases hcol with ⟨hx, hz, hlt⟩
      simp only at hx hz hlt hge
      rw [hx, hz, show qy = (y : Int) by omega]
  unfold OpenDown
  rw [hiff]

/-- The edited cell has its turn at its own level. -/
theorem ne_of_turn {y : Nat} {q : Pos} (hqp : q = p) (hq : q ≠ ⟨p.x, y, p.z⟩) :
    (y : Int) ≠ p.y := by
  intro heq
  apply hq
  rw [hqp, heq]

section Turn

-- the cell of the column that has its turn, and the level `v` that it gets
variable {y v : Nat} (hs : SunlitDown reg f g A h p (y + 1) L) (hle : ∀ q, L q ≤ maxLight)
  (hopen : g.OpenToSky reg h ⟨p.x, y, p.z⟩ → v = maxLight)
  (hcovered : ¬ g.OpenToSky reg h ⟨p.x, y, p.z⟩ →
    Refreshed (g.Conducts reg) (Function.update L ⟨p.x, y, p.z⟩ 0) ⟨p.x, y, p.z⟩ v)

include hs hcovered in
/-- A covered cell that is lit is fed from inside the region. -/
theorem SunlitDown.fed_of_covered (htop : ClearTop reg g h p) (hyh : (y : Int) < h)
    (hcov : ¬ g.OpenToSky reg h ⟨p.x, y, p.z⟩) (hpos : 0 < v) :
    g.Conducts reg ⟨p.x, y, p.z⟩ ∧ ∃ n, Adjacent ⟨p.x, y, p.z⟩ n ∧ A n ∧ v < L n := by
  refine (hcovered hcov).fed_inside hs.dark hpos fun hC => lt_of_le_of_ne hyh fun hy => ?_
  -- the top cell covers the sky only if it stops light
  have hstops := htop y hy (coversSky_of_covered_top hy hcov)
  have htr := hC.2
  rw [hstops] at htr
  cases htr

include hA hacc hheight hs hle hopen hcovered in
/-- From one cell of the column to the next. -/
theorem SunlitDown.step (htop : ClearTop reg g h p) (hP : A ⟨p.x, y, p.z⟩)
    (hle' : ∀ q, L' q ≤ maxLight)
    (hlev : Relevelled A (g.Conducts reg) L ⟨p.x, y, p.z⟩ v L') :
    SunlitDown reg f g A h p y L' := by
  have hyh : (y : Int) < h := hheight _ hP
  refine ⟨?_, ?_, ?_⟩
  · -- outside the region nothing is written
    intro q hq hqy
    rw [hlev.eq_outside (by rwa [hacc]) hP hq]
    exact hs.dark q hq hqy
  · intro q hq hqp
    by_cases hne : q = ⟨p.x, y, p.z⟩
    · -- the cell itself is open and got the full level
      have ho : g.OpenToSky reg h ⟨p.x, y, p.z⟩ := by
        rw [hne] at hq
        exact hq.2.2 fun hcol => lt_irrefl _ hcol.2.2
      have hv := hopen ho
      have hq15 := hle ⟨p.x, y, p.z⟩
      rw [hne]
      rcases hlev with ⟨hlt, -⟩ | ⟨-, hspread⟩ | ⟨heq, rfl⟩
      · omega
      · rw [hspread.origin, hv]
      · rw [← heq, hv]
    · -- other open cells were bright and are not brighter than they can be
      have hbright : L q = maxLight := by
        refine hs.bright q ((openDown_step hne).1 hq) ?_
        rcases hqp with hqp | hqp
        · exact .inl hqp
        · by_cases heq : q = p
          · have hturn := ne_of_turn heq hne
            right
            omega
          · exact .inl heq
      have hkeep := hlev.le_of_le hne (by
        rw [hbright]
        exact hle _)
      rw [hbright] at hkeep
      exact Nat.le_antisymm (hle' q) hkeep
  · refine hlev.supported (fun q _ hq hpos => hs.supported q hq hpos)
      (fun q hne hq => (openDown_step hne).2 hq) fun hpos => ?_
    by_cases ho : g.OpenToSky reg h ⟨p.x, y, p.z⟩
    · exact .inl ⟨hP, fun hcol => absurd hcol.2.2 (lt_irrefl _), fun _ => ho⟩
    · exact .inr (hs.fed_of_covered hcovered htop hyh ho hpos)

end Turn

include hA hacc hsame hheight in
/-- An edit and the refresh of its column keep the state. -/
theorem Sunlit.swept (hs : Sunlit reg f A h Hot L) (hthrough : SkyThrough reg)
    (htop : ClearTop reg g h p) (hlow : ∀ q, A q → 0 ≤ q.y) (hp : A p)
    (hcol : ∀ y : Nat, y < h.toNat → A ⟨p.x, y, p.z⟩)
    (hswept : Swept reg g A h p.x p.z L 0 L') : Sunlit reg g A h Hot L' := by
  have hpy := hlow p hp
  -- one cell after the other from the top, as the column is swept
  have hdown : ∀ n L', Swept reg g A h p.x p.z L n L' → SunlitDown reg f g A h p n L' := by
    intro n L' hswept
    induction hswept with
    | top => exact hs.down hacc hsame hheight hp
    | cell _ hy hle hle' hlev hopen hcovered ih =>
      exact ih.step hA hacc hheight hle hopen hcovered htop (hcol _ hy) hle' hlev
  have hdone := hdown 0 L' hswept
  -- with the whole column done, what counts as open is open
  have hiff : ∀ q, OpenDown reg f g A h p 0 q ↔ OpenIn reg g A h q := by
    intro q
    constructor
    · intro hq
      refine ⟨hq.1, hq.2.2 fun hcol => ?_⟩
      have := hlow q hq.1
      omega
    · intro hq
      refine ⟨hq.1, fun hcol => ?_, fun _ => hq.2⟩
      have := hlow q hq.1
      omega
  refine ⟨hs.toStill.swept hA hacc hsame hthrough ⟨hpy, hheight p hp⟩ hswept, hdone.dark, ?_, ?_⟩
  · intro q hq
    exact hdone.bright q ((hiff q).2 hq) (.inr (by omega))
  · intro q hq hpos
    rcases hdone.supported q hq hpos with hsource | hfed
    · exact .inl ((hiff q).1 hsource)
    · exact .inr hfed

end Edit

end VoxelWorld.Light
