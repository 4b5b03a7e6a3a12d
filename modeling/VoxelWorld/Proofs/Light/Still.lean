import VoxelWorld.Proofs.Light.Sky

/-!
# Proofs.Light.Still — sky light that stands still

* `Still` is the state of sky light in a region some parts of which are hot, that is, have
  light that was not spread: blocks that stop light are dark, and light would flow out of hot
  cells only.
* Spreading keeps it and cools a part down (`Still.grown`).
* An edit goes down the column of its cell. That makes no cell shed light that did not before
  (`Swept.even`) and leaves blocks that stop light dark (`Swept.stopped`), so nothing gets hot
  (`Still.swept`). Until the edited cell has its turn, light may flow into it.
-/

namespace VoxelWorld.Light

variable {reg : Registry} {f g : LightField} {A Hot Hot' : Pos → Prop} {h : Int} {L L' : Levels}
  {p : Pos}

/-- Blocks that leave the sky open let light through. -/
def SkyThrough (reg : Registry) : Prop :=
  ∀ id, (reg.get id).coversSky = false → reg.isTranslucent id = true

/-- The state of sky light but for hot cells. -/
structure Still (reg : Registry) (f : LightField) (A Hot : Pos → Prop) (L : Levels) : Prop where
  stopped : ∀ q, A q → ¬ f.Conducts reg q → L q = 0
  steep : ∀ a b, A a → f.Conducts reg a → Steep (f.Conducts reg) L a b → Hot a

/-- The levels of the field itself play no part. -/
theorem Still.congr (hs : Still reg f A Hot L) (hacc : g.accepts = f.accepts)
    (hblock : g.block = f.block) : Still reg g A Hot L := by
  have hC : g.Conducts reg = f.Conducts reg := LightField.conducts_congr hacc hblock
  constructor
  · rw [hC]
    exact hs.stopped
  · rw [hC]
    exact hs.steep

/-- Spreading keeps the state, and what it evened out is no longer hot. -/
theorem Still.grown (hs : Still reg f A Hot L) (hg : Grown A (f.Conducts reg) L L')
    (hcool : ∀ a, A a → f.Conducts reg a → Hot a → Hot' a ∨ Even (f.Conducts reg) L' a) :
    Still reg f A Hot' L' where
  stopped q hq hC := by
    rw [hg.eq_of_not hC]
    exact hs.stopped q hq hC
  steep a b ha hC hsteep := by
    rcases hg.steep hsteep with ⟨hsteep', -⟩
    rcases hcool a ha hC (hs.steep a b ha hC hsteep') with hhot | heven
    · exact hhot
    · exact absurd hsteep (heven b)

/-! ## Down a column -/

/-- The cells around one that got its level are not much brighter. -/
theorem around_of_refreshed {C : Pos → Prop} {v : Nat} {isOpen : Prop}
    (hle : ∀ q, L q ≤ maxLight) (hopen : isOpen → v = maxLight)
    (hcovered : ¬ isOpen → Refreshed C (Function.update L p 0) p v) (hC : C p) (n : Pos)
    (hadj : Adjacent p n) : L n ≤ v + 1 := by
  by_cases ho : isOpen
  · rw [hopen ho]
    exact (hle n).trans (Nat.le_succ _)
  · have hn := (hcovered ho).around hC n hadj
    rwa [Function.update_of_ne hadj.ne.symm] at hn

/-- A full level beside a column stays full. -/
theorem Swept.eq_maxLight {x z : Int} {n : Nat} {q : Pos}
    (h' : Swept reg g A h x z L n L') (hq : ∀ y : Nat, q ≠ ⟨x, y, z⟩) (hfull : L q = maxLight) :
    L' q = maxLight := by
  induction h' with
  | top => exact hfull
  | @cell y v M M' _ _ hle hle' hlev _ _ ih =>
    have hkept : M q ≤ M' q := hlev.le_of_le (hq y) (by rw [ih]; exact hle _)
    rw [ih] at hkept
    exact Nat.le_antisymm (hle' q) hkept

/-- A cell is still below unless it was just done. -/
theorem below_of_turn {y : Nat} {q : Pos} (hq : q = p ∧ p.y < (y + 1 : Nat))
    (hne : q ≠ ⟨p.x, y, p.z⟩) : q = p ∧ p.y < y := by
  refine ⟨hq.1, ?_⟩
  have hy : p.y ≠ y := by
    intro heq
    apply hne
    rw [hq.1, ← heq]
  omega

section Edit

variable (hA : ∀ q, f.accepts q = true ↔ A q) (hacc : g.accepts = f.accepts)
  (hsame : ∀ q, q ≠ p → g.block q = f.block q)

include hacc hsame in
/-- Refreshing the column of an edited cell `p` makes no cell shed light that did not before. -/
theorem Swept.even {a : Pos} (hswept : Swept reg g A h p.x p.z L 0 L') (hp : 0 ≤ p.y ∧ p.y < h)
    (ha : A a) (hC : g.Conducts reg a) (heven : Even (f.Conducts reg) L a) :
    Even (g.Conducts reg) L' a := by
  -- until the edited cell has its turn, light may flow into it
  have hdown : ∀ n L', Swept reg g A h p.x p.z L n L' → ∀ b,
      Steep (g.Conducts reg) L' a b → b = p ∧ p.y < n := by
    intro n L' hswept
    induction hswept with
    | top =>
      intro b hsteep
      by_cases hbp : b = p
      · exact ⟨hbp, by omega⟩
      · rcases hsteep with ⟨hadj, hCb, hlt⟩
        exact absurd ⟨hadj, (LightField.conducts_iff_of_edit hacc hsame hbp).1 hCb, hlt⟩ (heven b)
    | cell _ _ hle _ hlev hopen hcovered ih =>
      intro b hsteep
      rcases hlev.steep (around_of_refreshed hle hopen hcovered) ha hC hsteep with
        ⟨hsteep', hb, -⟩
      exact below_of_turn (ih b hsteep') hb
  intro b hsteep
  have hlt := (hdown 0 L' hswept b hsteep).2
  omega

include hA hacc hsame in
/-- Refreshing the column of an edited cell leaves blocks that stop light dark. -/
theorem Swept.stopped (hswept : Swept reg g A h p.x p.z L 0 L') (hthrough : SkyThrough reg)
    (hp : 0 ≤ p.y ∧ p.y < h) (hs : ∀ q, A q → ¬ f.Conducts reg q → L q = 0) {q : Pos} (hq : A q)
    (hC : ¬ g.Conducts reg q) : L' q = 0 := by
  -- down the column, the edited cell is dark once its turn was
  have hdown : ∀ n L', Swept reg g A h p.x p.z L n L' → L' q = 0 ∨ q = p ∧ p.y < n := by
    intro n L' hswept
    induction hswept with
    | top =>
      by_cases hqp : q = p
      · exact .inr ⟨hqp, by omega⟩
      · exact .inl (hs q hq fun hC' =>
          hC ((LightField.conducts_iff_of_edit hacc hsame hqp).2 hC'))
    | @cell y v M M' _ _ _ _ hlev _ hcovered ih =>
      by_cases hqc : q = ⟨p.x, y, p.z⟩
      · left
        rw [hqc] at hq hC ⊢
        -- open cells let light in, so this one is covered and gets none
        have ho : ¬ g.OpenToSky reg h ⟨p.x, y, p.z⟩ := by
          intro ho
          refine hC ⟨?_, hthrough _ (ho.self (by simp only; omega))⟩
          rw [hacc]
          exact (hA _).2 hq
        have hv : v = 0 := (hcovered ho).dark hC
        rw [hv] at hlev
        exact hlev.dark hC
      · rw [hlev.eq_of_not hC hqc]
        exact ih.imp_right fun hqp => below_of_turn hqp hqc
  rcases hdown 0 L' hswept with h0 | ⟨-, hlt⟩
  · exact h0
  · omega

include hA hacc hsame in
/-- Refreshing the column of an edited cell makes no cell hot. -/
theorem Still.swept (hs : Still reg f A Hot L) (hthrough : SkyThrough reg)
    (hp : 0 ≤ p.y ∧ p.y < h) (hswept : Swept reg g A h p.x p.z L 0 L') :
    Still reg g A Hot L' where
  stopped q hq hC := hswept.stopped hA hacc hsame hthrough hp hs.stopped hq hC
  steep a b ha hC hsteep := by
    by_contra hcold
    refine hswept.even hacc hsame hp ha hC (fun b' hsteep' => hcold ?_) b hsteep
    -- a cell that stopped light was dark, so no light flows out of it
    refine hs.steep a b' ha ?_ hsteep'
    by_contra hno
    have h0 := hs.stopped a ha hno
    have hlt := hsteep'.2.2
    omega

end Edit

end VoxelWorld.Light
