import VoxelWorld.Proofs.Light.Sunlight

/-!
# Proofs.Light.Refresh — refreshing a column in which no block changed

Once nothing is hot, each covered cell has what it would be computed to have from the cells around
it, and each open cell is bright. So going down a column again changes nothing
(`Sunlit.eq_of_swept`).

The one exception is the top of the world. Refreshing a cell takes light from above the world, which
neither the sky gives to a covered cell nor spreading brings to it. So a top cell that covers the
sky and yet lets light in gets brighter, and stays so (`LitFromAbove`). `Sunlit.swept_eq_iff` puts
both together.
-/

namespace VoxelWorld.Light

variable {reg : Registry} {f : LightField} {A Hot : Pos → Prop} {h : Int} {L L' : Levels}
  {p top : Pos} {n v : Nat}

/-- The light from above the world adds nothing to the cell at the top of the column: it covers the
sky only if it stops light, or it is as bright as that light would make it. -/
def TopLit (reg : Registry) (f : LightField) (h : Int) (p : Pos) (L : Levels) : Prop :=
  ClearTop reg f h p ∨ maxLight ≤ L ⟨p.x, h - 1, p.z⟩ + 1

/-- Computed levels are at least one below the full level. -/
theorem Refreshed.lt_maxLight {C : Pos → Prop} (href : Refreshed C (Function.update L p 0) p v)
    (hle : ∀ q, L q ≤ maxLight) : v < maxLight := by
  rcases Nat.eq_zero_or_pos v with hzero | hpos
  · rw [hzero]
    decide
  · rcases href.fed hpos with heq | ⟨n, hadj, hn⟩
    · rw [Function.update_self] at heq
      omega
    · rw [Function.update_of_ne hadj.ne.symm] at hn
      have := hle n
      omega

/-- Before the first cell of the column. -/
theorem Swept.eq_start {x z : Int} (hswept : Swept reg f A h x z L n L') (hn : h.toNat ≤ n) :
    L' = L := by
  cases hswept with
  | top => rfl
  | cell _ hy => omega

/-! ## Where nothing changes -/

namespace Sunlit

/-- A covered cell is computed to have the level that it has. -/
theorem refreshed_eq (hs : Sunlit reg f A h (fun _ => False) L) (hle : ∀ q, L q ≤ maxLight)
    (htop : TopLit reg f h p L) (hp : A p) (hy : p.y < h) (hcov : ¬ f.OpenToSky reg h p)
    (href : Refreshed (f.Conducts reg) (Function.update L p 0) p v) : v = L p := by
  by_cases hC : f.Conducts reg p
  swap
  · rw [href.dark hC, hs.stopped p hp hC]
  apply Nat.le_antisymm
  · rcases Nat.eq_zero_or_pos v with hzero | hpos
    · rw [hzero]
      exact Nat.zero_le _
    by_cases hbelow : p.y + 1 < h
    · -- it is fed by a cell of the region, out of which no light would flow
      rcases href.fed_inside hs.dark hpos fun _ => hbelow with ⟨-, n, hadj, hn, hlt⟩
      have hCn : f.Conducts reg n := by
        by_contra hno
        have hzero := hs.stopped n hn hno
        omega
      by_contra hgt
      exact hs.steep n p hn hCn ⟨hadj.symm, hC, by omega⟩
    · -- at the top it may be fed from above the world
      have hlt := href.lt_maxLight hle
      rcases htop with hclear | hbright
      · have hstops := hclear p.y (by omega) (coversSky_of_covered_top (by omega) hcov)
        exact absurd (hstops.symm.trans hC.2) Bool.false_ne_true
      · rw [show h - 1 = p.y by omega] at hbright
        have hbright' : maxLight ≤ L p + 1 := hbright
        omega
  · rcases Nat.eq_zero_or_pos (L p) with hzero | hpos
    · rw [hzero]
      exact Nat.zero_le _
    · rcases hs.supported p hp hpos with hopen | ⟨-, n, hadj, -, hlt⟩
      · exact absurd hopen.2 hcov
      · have haround := href.around hC n hadj
        rw [Function.update_of_ne hadj.ne.symm] at haround
        omega

/-- Going down the column changes nothing. -/
theorem eq_of_swept (hs : Sunlit reg f A h (fun _ => False) L) (htop : TopLit reg f h p L)
    (hcol : ∀ y : Nat, y < h.toNat → A ⟨p.x, y, p.z⟩)
    (hswept : Swept reg f A h p.x p.z L n L') : L' = L := by
  induction hswept with
  | top => rfl
  | @cell y v M M' _ hy hle _ hlev hopen hcovered ih =>
    rw [ih] at hle hlev hcovered
    refine hlev.eq_of_eq ?_
    by_cases ho : f.OpenToSky reg h ⟨p.x, y, p.z⟩
    · rw [hopen ho, hs.bright _ ⟨hcol y hy, ho⟩]
    · exact hs.refreshed_eq hle htop (hcol y hy) (by simp only; omega) ho (hcovered ho)

end Sunlit

/-! ## Light from above the world -/

/-- A covered cell at the top has the light from above the world. Besides it and the open cells
there are no sources. -/
structure LitFromAbove (reg : Registry) (f : LightField) (A : Pos → Prop) (h : Int) (top : Pos)
    (L : Levels) : Prop where
  dark : ∀ q, ¬ A q → q.y < h → L q = 0
  supported : Supported A (f.Conducts reg) (fun q => OpenIn reg f A h q ∨ q = top) L
  lit : maxLight ≤ L top + 1

section Above

variable (hA : ∀ q, f.accepts q = true ↔ A q) (hcol : ∀ y : Nat, y < h.toNat → A ⟨p.x, y, p.z⟩)
  {t : Nat} (ht : (t : Int) + 1 = h)
  (hcovers : (reg.get (f.block ⟨p.x, t, p.z⟩)).coversSky = true)

include ht hcovers in
/-- Below it the column is covered. -/
theorem not_openToSky_below {y : Nat} (hy : y ≤ t) : ¬ f.OpenToSky reg h ⟨p.x, y, p.z⟩ := by
  intro hopen
  have hclear := hopen t (by simp only; omega) (by omega)
  exact absurd (hclear.symm.trans hcovers) Bool.false_ne_true

include hA ht in
/-- The cell at the top is the first one to have its turn. -/
theorem Sunlit.litFromAbove (hs : Sunlit reg f A h Hot L)
    (habove : ∀ q, h ≤ q.y → L q = maxLight) (hP : A ⟨p.x, t, p.z⟩)
    (hC : f.Conducts reg ⟨p.x, t, p.z⟩) (hlow : L ⟨p.x, t, p.z⟩ + 1 < maxLight)
    (href : Refreshed (f.Conducts reg) (Function.update L ⟨p.x, t, p.z⟩ 0) ⟨p.x, t, p.z⟩ v)
    (hlev : Relevelled A (f.Conducts reg) L ⟨p.x, t, p.z⟩ v L') :
    LitFromAbove reg f A h ⟨p.x, t, p.z⟩ L' := by
  have hadj : Adjacent ⟨p.x, t, p.z⟩ ⟨p.x, t + 1, p.z⟩ := ⟨(0, 1, 0), by decide, by simp [shift]⟩
  have hv := href.around hC _ hadj
  rw [Function.update_of_ne hadj.ne.symm, habove _ ht.ge] at hv
  refine ⟨fun q hq hqy => ?_, ?_, ?_⟩
  · rw [hlev.eq_outside hA hP hq]
    exact hs.dark q hq hqy
  · exact hlev.supported (fun q _ hq hpos => hs.supported q hq hpos) (fun q _ => .inl)
      fun _ => .inl (.inr rfl)
  · rw [hlev.eq_of_lt (by omega)]
    exact hv

include hA hcol ht hcovers in
/-- The cells below it take nothing from it. -/
theorem LitFromAbove.step {y : Nat} (hl : LitFromAbove reg f A h ⟨p.x, t, p.z⟩ L)
    (hle : ∀ q, L q ≤ maxLight) (hy : y < t)
    (href : Refreshed (f.Conducts reg) (Function.update L ⟨p.x, y, p.z⟩ 0) ⟨p.x, y, p.z⟩ v)
    (hlev : Relevelled A (f.Conducts reg) L ⟨p.x, y, p.z⟩ v L') :
    LitFromAbove reg f A h ⟨p.x, t, p.z⟩ L' := by
  have hP : A ⟨p.x, y, p.z⟩ := hcol y (by omega)
  have hcov := not_openToSky_below ht hcovers hy.le
  have hne : (⟨p.x, t, p.z⟩ : Pos) ≠ ⟨p.x, y, p.z⟩ := by
    intro heq
    have hty : (t : Int) = y := congrArg Pos.y heq
    omega
  refine ⟨fun q hq hqy => ?_, ?_, hl.lit.trans (Nat.succ_le_succ (hlev.le_of_le hne ?_))⟩
  · rw [hlev.eq_outside hA hP hq]
    exact hl.dark q hq hqy
  · exact hlev.supported (fun q _ hq hpos => hl.supported q hq hpos) (fun q _ hS => hS)
      fun hpos => .inr (href.fed_inside hl.dark hpos fun _ => by simp only; omega)
  · -- being covered, the cell is less than fully lit
    rcases Nat.eq_zero_or_pos (L ⟨p.x, y, p.z⟩) with hzero | hpos
    · rw [hzero]
      exact Nat.zero_le _
    · rcases hl.supported _ hP hpos with (hopen | heq) | ⟨-, n, -, -, hlt⟩
      · exact absurd hopen.2 hcov
      · exact absurd heq.symm hne
      · have hn := hle n
        have hlit := hl.lit
        omega

include hA hcol ht hcovers in
/-- The light that came in from above the world is still there once the column is done. -/
theorem Sunlit.litFromAbove_of_swept (hs : Sunlit reg f A h Hot L)
    (habove : ∀ q, h ≤ q.y → L q = maxLight) (hC : f.Conducts reg ⟨p.x, t, p.z⟩)
    (hlow : L ⟨p.x, t, p.z⟩ + 1 < maxLight) (hswept : Swept reg f A h p.x p.z L n L')
    (hn : n ≤ t) : LitFromAbove reg f A h ⟨p.x, t, p.z⟩ L' := by
  induction hswept with
  | top => omega
  | @cell y v M M' hbefore hy hle _ hlev _ hcovered ih =>
    have href := hcovered (not_openToSky_below ht hcovers hn)
    rcases hn.eq_or_lt with rfl | hlt
    · -- nothing was done before
      rw [hbefore.eq_start (by omega)] at href hlev
      exact hs.litFromAbove hA ht habove (hcol y hy) hC hlow href hlev
    · exact (ih hlt).step hA hcol ht hcovers hle hlt href hlev

end Above

/-- Refreshing a column changes no level just if the light from above the world adds nothing. -/
theorem Sunlit.swept_eq_iff (hs : Sunlit reg f A h (fun _ => False) L)
    (hA : ∀ q, f.accepts q = true ↔ A q) (hcol : ∀ y : Nat, y < h.toNat → A ⟨p.x, y, p.z⟩)
    (hh : 0 < h) (habove : ∀ q, h ≤ q.y → L q = maxLight)
    (hswept : Swept reg f A h p.x p.z L 0 L') : L' = L ↔ TopLit reg f h p L := by
  refine ⟨fun heq => ?_, fun htop => hs.eq_of_swept htop hcol hswept⟩
  by_contra hno
  rcases not_or.1 hno with ⟨hclear, hlow⟩
  simp only [ClearTop, not_forall] at hclear
  rcases hclear with ⟨y, hy, hcovers, hstops⟩
  obtain ⟨t, rfl⟩ : ∃ t : Nat, y = t := ⟨y.toNat, by omega⟩
  have hC : f.Conducts reg ⟨p.x, t, p.z⟩ :=
    ⟨(hA _).2 (hcol t (by omega)), Bool.not_eq_false _ ▸ hstops⟩
  rw [show h - 1 = (t : Int) by omega] at hlow
  have hlit := (hs.litFromAbove_of_swept hA hcol hy hcovers habove hC (by omega) hswept
    (Nat.zero_le t)).lit
  rw [heq] at hlit
  exact hlow hlit

end VoxelWorld.Light
