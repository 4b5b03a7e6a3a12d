import VoxelWorld.Light.Column
import VoxelWorld.Proofs.Light.Retract

/-!
# Proofs.Light.Column — single cells, columns and whole chunks

* `Refreshed` says what a cell holds that was computed from the cells around it.
* `Relevelled` relates the levels before and after a cell of a column got its new level and
  the difference was spread or retracted.
* `CellSwept` says what refreshing a cell of a column leaves. `foldColumn_ensures` runs down a
  column; what the cells add up to is left to an invariant.
* `relight_ensures` goes through a chunk: no level falls, and no light is left that would
  flow out of a cell of the chunk. Once all is calm, what `Relit` says determines the levels
  (`Relit.eq_carried`). The same goes for a region that light does not leave
  (`RelitIn.eq_carriedIn`).
-/

namespace VoxelWorld

/-- The cells that light flows out of: those that it enters, and for block light those that
give it off. -/
def LightField.Shines (reg : Registry) (f : LightField) (k : LightKind) (p : Pos) : Prop :=
  f.accepts p = true ∧
    (reg.isTranslucent (f.block p) = true ∨ k = .block ∧ 0 < reg.luminance (f.block p))

namespace LightField

variable {reg : Registry} {f : LightField} {p : Pos}

/-- Sky light flows out of the cells that light enters. -/
theorem shines_sky (h : f.accepts p = true) :
    f.Shines reg .sky p ↔ reg.isTranslucent (f.block p) = true := by
  unfold Shines
  simp [h]

/-- Block light flows out of these, and of the cells that give it off. -/
theorem shines_block (h : f.accepts p = true) : f.Shines reg .block p ↔
    reg.isTranslucent (f.block p) = true ∨ 0 < reg.luminance (f.block p) := by
  unfold Shines
  simp [h]

theorem Conducts.shines {k : LightKind} (h : f.Conducts reg p) : f.Shines reg k p :=
  ⟨h.1, .inl h.2⟩

end LightField

namespace Light

variable {A C S : Pos → Prop} {L L' : Levels} {p a b : Pos} {v : Nat}

/-! ## One cell -/

/-- The level `v` computed from the cells around `p`. -/
structure Refreshed (C : Pos → Prop) (L : Levels) (p : Pos) (v : Nat) : Prop where
  dark : ¬ C p → v = 0
  own : C p → L p ≤ v
  around : C p → ∀ n, Adjacent p n → L n ≤ v + 1
  fed : 0 < v → v = L p ∨ ∃ n, Adjacent p n ∧ L n = v + 1

/-- The cell got the level `v` and the difference was carried on. -/
def Relevelled (A C : Pos → Prop) (L : Levels) (p : Pos) (v : Nat) (L' : Levels) : Prop :=
  v < L p ∧ Retracted A C L p (L p) L' ∨ L p < v ∧ SpreadFrom A C L p v L' ∨ v = L p ∧ L' = L

namespace Relevelled

/-- Light does not enter other cells that stop it, so they keep theirs. -/
theorem eq_of_not (h : Relevelled A C L p v L') (hq : ¬ C a) (hne : a ≠ p) : L' a = L a := by
  rcases h with ⟨_, h⟩ | ⟨_, h⟩ | ⟨_, rfl⟩
  · rw [h.eq_of_not hq, if_neg hne]
  · exact h.eq_of_not hq hne
  · rfl

/-- Outside the region nothing is written. -/
theorem eq_outside {reg : Registry} {f : LightField} (h : Relevelled A (f.Conducts reg) L p v L')
    (hA : ∀ q, f.accepts q = true ↔ A q) (hp : A p) (ha : ¬ A a) : L' a = L a := by
  apply h.eq_of_not
  · intro hC
    exact ha ((hA a).1 hC.1)
  · rintro rfl
    exact ha hp

/-- A cell that keeps its level carries nothing on. -/
theorem eq_of_eq (h : Relevelled A C L p v L') (hv : v = L p) : L' = L := by
  rcases h with ⟨hlt, -⟩ | ⟨hlt, -⟩ | ⟨-, heq⟩
  · omega
  · omega
  · exact heq

/-- A cell that gets brighter gets just its new level. -/
theorem eq_of_lt (h : Relevelled A C L p v L') (hv : L p < v) : L' p = v := by
  rcases h with ⟨hlt, -⟩ | ⟨-, hspread⟩ | ⟨heq, -⟩
  · omega
  · exact hspread.origin
  · omega

/-- A cell that lets no light in and got no light is dark. -/
theorem dark (h : Relevelled A C L p 0 L') (hp : ¬ C p) : L' p = 0 := by
  rcases h with ⟨_, h⟩ | ⟨hlt, _⟩ | ⟨h0, rfl⟩
  · rw [h.eq_of_not hp, if_pos rfl]
  · omega
  · exact h0.symm

/-- If the cell is bright enough for the cells around it, then no pair gets steep, none into
the cell is left, and none out of it unless the cell kept its level. -/
theorem steep (h : Relevelled A C L p v L') (hin : C p → ∀ n, Adjacent p n → L n ≤ v + 1)
    (hA : A a) (hout : C a) (hs : Steep C L' a b) :
    Steep C L a b ∧ b ≠ p ∧ (a = p → L p = v) := by
  have hinto : b = p → ¬ v + 1 < L a := by
    rintro rfl hlt
    have := hin hs.2.1 a hs.1.symm
    omega
  rcases h with ⟨_, h⟩ | ⟨hlt, h⟩ | ⟨heq, rfl⟩
  · rcases h.steep hA (.inl hout) hs with ⟨hs', ha, hb⟩
    exact ⟨hs', hb, fun hap => absurd hap ha⟩
  · rcases h.steep hlt.le hs with ⟨hs', ha, hb⟩
    exact ⟨hs', fun hbp => hinto hbp (hb hbp), fun hap => absurd hap ha⟩
  · refine ⟨hs, ?_, fun _ => heq.symm⟩
    rintro rfl
    have := hs.2.2
    exact hinto rfl (by omega)

/-- A new level that is supported leaves all levels supported. -/
theorem supported (h : Relevelled A C L p v L')
    (hS : ∀ q, q ≠ p → A q → 0 < L q → S q ∨ C q ∧ ∃ n, Adjacent q n ∧ A n ∧ L q < L n)
    {S' : Pos → Prop} (hS' : ∀ q, q ≠ p → S q → S' q)
    (hp : 0 < v → S' p ∨ C p ∧ ∃ n, Adjacent p n ∧ A n ∧ v < L n) : Supported A C S' L' := by
  have hrest : ∀ q, q ≠ p → A q → 0 < L q →
      S' q ∨ C q ∧ ∃ n, Adjacent q n ∧ A n ∧ L q < L n := by
    intro q hq hA hpos
    exact (hS q hq hA hpos).imp_left (hS' q hq)
  -- darker, brighter, or the same as before
  rcases h with ⟨-, h⟩ | ⟨hlt, h⟩ | ⟨heq, rfl⟩
  · intro q hA hpos
    rcases h.supported le_rfl hS q hA hpos with ⟨hs, hq⟩ | hfed
    · exact .inl (hS' q hq hs)
    · exact .inr hfed
  · exact h.supported hlt.le hrest (hp (Nat.zero_lt_of_lt hlt))
  · intro q hA hpos
    by_cases hq : q = p
    · subst hq
      rw [← heq] at hpos ⊢
      exact hp hpos
    · exact hrest q hq hA hpos

/-- Sources that are as bright as the cell was do not get darker. -/
theorem le_of_le (h : Relevelled A C L p v L') (hne : a ≠ p) (hle : L p ≤ L a) :
    L a ≤ L' a := by
  rcases h with ⟨_, h⟩ | ⟨hlt, h⟩ | ⟨_, rfl⟩
  · exact h.le_of_le hne hle
  · exact h.mono hlt.le a
  · exact le_rfl

end Relevelled

variable {V : Type} [LightVolume V] {faulty : Prop} {Good : V → Prop}
  (laws : VolumeLaws V faulty A Good) {reg : Registry} {f : LightField} {k : LightKind}

include laws in
/-- The search around a cell finds the highest level beside it, or nothing. -/
theorem brightestAround_ensures {vol : V} (h : Shows Good f k vol L) (hp : A p) :
    Ensures faulty (brightestAround vol p k) fun m =>
      (∀ n, Adjacent p n → L n ≤ m) ∧ (m = 0 ∨ ∃ n, Adjacent p n ∧ L n = m) := by
  unfold brightestAround
  -- `m` bounds what was looked at so far, and is one of these levels or zero
  refine (Ensures.foldlM (I := fun ds m => (∀ d ∈ directions, d ∈ ds ∨ L (shift p d) ≤ m) ∧
    (m = 0 ∨ ∃ n, Adjacent p n ∧ L n = m)) ?_ ⟨fun d hd => .inl hd, .inl rfl⟩).mono ?_
  · rintro d ds m hd ⟨hle, hmax⟩
    apply (laws.step hp hd).bind_eq
    apply (h.light laws (Near.shift hp hd)).bind_eq
    refine Ensures.pure ⟨fun e he => ?_, ?_⟩
    · rcases hle e he with hmem | hle
      · rcases List.mem_cons.1 hmem with rfl | hmem
        · exact .inr (Nat.le_max_right _ _)
        · exact .inl hmem
      · exact .inr (hle.trans (Nat.le_max_left _ _))
    · rcases Nat.le_total (L (shift p d)) m with hm | hm
      · rw [Nat.max_eq_left hm]
        exact hmax
      · rw [Nat.max_eq_right hm]
        exact .inr ⟨_, ⟨d, hd, rfl⟩, rfl⟩
  · intro m hm
    rcases hm with ⟨hle, hmax⟩
    refine ⟨?_, hmax⟩
    rintro n ⟨d, hd, rfl⟩
    exact (hle d hd).resolve_left List.not_mem_nil

include laws in
/-- The cell is written the level that its surroundings feed it, and nothing else is. -/
theorem refresh_ensures {vol : V} (h : Shows Good f k vol L) (hp : A p) :
    Ensures faulty (refresh reg vol p k) fun vol' => ∃ v ≤ maxLight,
      Shows Good f k vol' (Function.update L p v) ∧ Refreshed (f.Conducts reg) L p v := by
  have hacc := (h.accepts_iff laws p).2 hp
  unfold refresh
  apply (h.block laws (Near.inside hp)).bind_eq
  refine Ensures.ite (fun htr => ?_) fun htr => ?_
  · apply (h.light laws (Near.inside hp)).bind_eq
    apply (brightestAround_ensures laws h hp).bind
    intro m hm
    rcases hm with ⟨hle, hmax⟩
    have hm : m ≤ maxLight := by
      rcases hmax with rfl | ⟨n, _, rfl⟩
      · exact Nat.zero_le _
      · exact h.level_le laws n
    -- the cell keeps its own level where that is brighter
    have hv : max (m - 1) (L p) ≤ maxLight := by
      have := h.level_le laws p
      omega
    refine (h.setLight laws hp hv).mono fun vol' hvol' => ⟨_, hv, hvol', ?_⟩
    refine ⟨fun hC => absurd ⟨hacc, htr⟩ hC, fun _ => Nat.le_max_right _ _, ?_, ?_⟩
    · intro _ n hadj
      have := hle n hadj
      omega
    · intro hpos
      rcases Nat.le_total (m - 1) (L p) with hown | hown
      · exact .inl (Nat.max_eq_right hown)
      · rw [Nat.max_eq_left hown] at hpos ⊢
        rcases hmax with rfl | ⟨n, hadj, hn⟩
        · omega
        · exact .inr ⟨n, hadj, by omega⟩
  · -- light cannot enter the cell
    refine (h.setLight laws hp (Nat.zero_le _)).mono fun vol' hvol' => ⟨0, Nat.zero_le _, hvol', ?_⟩
    exact ⟨fun _ => rfl, fun hC => absurd hC.2 htr, fun hC => absurd hC.2 htr, nofun⟩

/-! ## Columns -/

/-- The cell `p` of a column got its level: the full one where the sky is open, and else one
computed from the cells around it. The difference was carried on. -/
def CellSwept (Good : V → Prop) (A : Pos → Prop) (reg : Registry) (f : LightField) (L : Levels)
    (p : Pos) (s : ColumnState V) : Prop :=
  ∃ v L', Shows Good f .sky s.vol L' ∧ Relevelled A (f.Conducts reg) L p v L' ∧
    (s.covered = false → v = maxLight) ∧
    (s.covered = true → Refreshed (f.Conducts reg) (Function.update L p 0) p v)

include laws in
/-- Carrying the difference on, once the cell holds its new level. -/
theorem carry_ensures {vol : V} {covered : Bool} (hp : A p) (hL : L p ≤ maxLight)
    (hv : v ≤ maxLight) (hshow : Shows Good f .sky vol (Function.update L p v))
    (hopen : covered = false → v = maxLight)
    (hcovered : covered = true → Refreshed (f.Conducts reg) (Function.update L p 0) p v) :
    Ensures faulty (do
      let new ← LightVolume.light vol p .sky
      if new < L p then do
        let vol ← retract reg vol p .sky (L p)
        pure (ColumnState.mk vol covered)
      else if L p < new then do
        let vol ← spread reg vol p .sky new
        pure (ColumnState.mk vol covered)
      else do
        let vol ← pure vol
        pure (ColumnState.mk vol covered)) fun s' =>
      s'.covered = covered ∧ CellSwept Good A reg f L p s' := by
  apply (hshow.light laws (Near.inside hp)).bind_eq
  rw [Function.update_self]
  refine Ensures.ite (fun hlt => ?_) fun hge => Ensures.ite (fun hlt => ?_) fun hle => ?_
  · -- darker: the old light is taken back
    apply (retract_ensures laws hshow hp (by omega) hL).bind
    intro vol' hvol'
    rcases hvol' with ⟨L', hshow', hret⟩
    refine Ensures.pure ⟨rfl, v, L', hshow', .inl ⟨hlt, hret.congr fun q hq => ?_⟩,
      hopen, hcovered⟩
    rw [Function.update_of_ne hq]
  · -- brighter: the new light is spread
    apply (spread_ensures laws hshow hp (by omega) hv).bind
    intro vol' hvol'
    rcases hvol' with ⟨L', hshow', hspr⟩
    refine Ensures.pure ⟨rfl, v, L', hshow', .inr (.inl ⟨hlt, ?_⟩), hopen, hcovered⟩
    exact hspr.congr fun q hq => (Function.update_of_ne hq _ _).symm
  · have heq : v = L p := by omega
    refine Ensures.pure ⟨rfl, v, L, ?_, .inr (.inr ⟨heq, rfl⟩), hopen, hcovered⟩
    rwa [heq, Function.update_eq_self] at hshow

include laws in
/-- One cell of a column that is brought up to date with its surroundings. -/
theorem refreshColumnCell_ensures {s : ColumnState V} {x z : Int} {y : Nat}
    (h : Shows Good f .sky s.vol L) (hp : A ⟨x, y, z⟩) :
    Ensures faulty (refreshColumnCell reg x z true true s y) fun s' =>
      s'.covered = (s.covered || (reg.get (f.block ⟨x, y, z⟩)).coversSky) ∧
      CellSwept Good A reg f L ⟨x, y, z⟩ s' := by
  rcases s with ⟨vol, covered⟩
  unfold refreshColumnCell
  apply (h.block laws (Near.inside hp)).bind_eq
  apply (h.light laws (Near.inside hp)).bind_eq
  -- below a cover the cell is asked of its neighbours; open to the sky it has all light
  refine Ensures.ite (fun hc => ?_) fun hc => ?_
  · apply (h.setLight laws hp (Nat.zero_le _)).bind
    intro vol₁ hshow₁
    apply (refresh_ensures laws hshow₁ hp).bind
    intro vol₂ hvol₂
    rcases hvol₂ with ⟨v, hv, hshow₂, href⟩
    rw [Function.update_idem] at hshow₂
    exact carry_ensures laws hp (h.level_le laws _) hv hshow₂
      (fun hf => absurd (hf.symm.trans hc) Bool.false_ne_true) fun _ => href
  · apply (h.setLight laws hp le_rfl).bind
    intro vol₁ hshow₁
    exact carry_ensures laws hp (h.level_le laws _) le_rfl hshow₁ (fun _ => rfl)
      fun ht => absurd ht hc

include laws in
/-- One cell of a column of a new chunk. -/
theorem seedColumnCell_ensures {s : ColumnState V} {x z : Int} {y : Nat}
    (h : Shows Good f .sky s.vol L) (hp : A ⟨x, y, z⟩) :
    Ensures faulty (refreshColumnCell reg x z false false s y) fun s' =>
      s'.covered = (s.covered || (reg.get (f.block ⟨x, y, z⟩)).coversSky) ∧
      Shows Good f .sky s'.vol
        (Function.update L ⟨x, y, z⟩ (if s'.covered then 0 else maxLight)) := by
  rcases s with ⟨vol, covered⟩
  unfold refreshColumnCell
  apply (h.block laws (Near.inside hp)).bind_eq
  apply (h.light laws (Near.inside hp)).bind_eq
  refine Ensures.ite (fun hc => ?_) fun hc => ?_
  · apply (h.setLight laws hp (Nat.zero_le _)).bind
    intro vol₁ hshow₁
    apply (hshow₁.light laws (Near.inside hp)).bind_eq
    refine Ensures.pure ⟨rfl, ?_⟩
    rwa [if_pos hc]
  · apply (h.setLight laws hp le_rfl).bind
    intro vol₁ hshow₁
    apply (hshow₁.light laws (Near.inside hp)).bind_eq
    refine Ensures.pure ⟨rfl, ?_⟩
    rwa [if_neg hc]

/-- A column is gone through from the top down. -/
theorem foldColumn_ensures {x z : Int} {spreading refreshing : Bool} {n : Nat}
    {I : Nat → ColumnState V → Prop} {s : ColumnState V}
    (hstep : ∀ y s, y < n → I (y + 1) s →
      Ensures faulty (refreshColumnCell reg x z spreading refreshing s y) (I y))
    (h : I n s) :
    Ensures faulty ((List.range n).reverse.foldlM
      (refreshColumnCell reg x z spreading refreshing) s) (I 0) := by
  induction n generalizing s with
  | zero => exact h
  | succ n ih =>
    rw [List.range_succ, List.reverse_append, List.reverse_singleton, List.singleton_append,
      List.foldlM_cons]
    apply (hstep n s (Nat.lt_succ_self n) h).bind
    intro t ht
    exact ih (fun y s hy => hstep y s (hy.trans (Nat.lt_succ_self n))) ht

/-! ## Whole chunks -/

/-- A cell holds no more than what a cell that light flows out of had to shed. -/
def Traced (reg : Registry) (f : LightField) (k : LightKind) (q : Pos) (v : Nat) : Prop :=
  ∃ s n, f.Shines reg k s ∧ Walk (f.Conducts reg) n s q ∧ v + n ≤ f.level k s

/-- Blocks are as they were, no level fell, and what got brighter did so by light that was
there before and sheds no more light. -/
structure Relit (reg : Registry) (A : Pos → Prop) (f f' : LightField) : Prop where
  accepts : f'.accepts = f.accepts
  block : f'.block = f.block
  grown : ∀ k, Grown A (f.Conducts reg) (f.level k) (f'.level k)
  traced : ∀ k q, f.level k q < f'.level k q → Traced reg f k q (f'.level k q)

namespace Relit

variable {f' f'' : LightField}

theorem refl : Relit reg A f f :=
  ⟨rfl, rfl, fun _ => Grown.refl, fun _ _ h => absurd h (lt_irrefl _)⟩

theorem conducts (h : Relit reg A f f') : f'.Conducts reg = f.Conducts reg :=
  LightField.conducts_congr h.accepts h.block

theorem shines (h : Relit reg A f f') : f'.Shines reg k = f.Shines reg k := by
  unfold LightField.Shines
  rw [h.accepts, h.block]

/-- What got brighter in the second step did so by light of the first, so by light from the start.
-/
theorem trans (h : Relit reg A f f') (h' : Relit reg A f' f'') : Relit reg A f f'' := by
  refine ⟨h'.accepts.trans h.accepts, h'.block.trans h.block, fun k => ?_, fun k q hlt => ?_⟩
  · have hgrown := h'.grown k
    rw [h.conducts] at hgrown
    exact (h.grown k).trans hgrown
  · by_cases hlt' : f'.level k q < f''.level k q
    · rcases h'.traced k q hlt' with ⟨s, n, hs, hwalk, hle⟩
      rw [h.shines] at hs
      rw [h.conducts] at hwalk
      -- light that the first time brought to `s` came from elsewhere
      by_cases hnew : f.level k s < f'.level k s
      · rcases h.traced k s hnew with ⟨r, m, hr, hwalk', hle'⟩
        exact ⟨r, m + n, hr, hwalk'.append hwalk, by omega⟩
      · exact ⟨s, n, hs, hwalk, by omega⟩
    · have heq := (h'.grown k).mono q
      have heq : f''.level k q = f'.level k q := by omega
      rw [heq] at hlt ⊢
      exact h.traced k q hlt

end Relit

/-- Only cells of the region `Q` were spread. So under a bound out of which no light would flow
nothing got brighter outside. -/
structure RelitIn (reg : Registry) (A Q : Pos → Prop) (f f' : LightField) : Prop
    extends Relit reg A f f' where
  under : ∀ k B, (∀ a, Q a → f.Shines reg k a → Even (f.Conducts reg) B a) →
    Under Q B (f.level k) → Under Q B (f'.level k)

namespace RelitIn

variable {Q : Pos → Prop} {f' f'' : LightField}

theorem refl : RelitIn reg A Q f f := ⟨Relit.refl, fun _ _ _ h => h⟩

theorem trans (h : RelitIn reg A Q f f') (h' : RelitIn reg A Q f' f'') :
    RelitIn reg A Q f f'' where
  toRelit := h.toRelit.trans h'.toRelit
  under k B heven hB := by
    refine h'.under k B ?_ (h.under k B heven hB)
    rw [h.conducts, h.shines]
    exact heven

end RelitIn

/-- No light would flow out of the cell, in either channel. -/
def Calm (reg : Registry) (f : LightField) (p : Pos) : Prop :=
  ∀ k, f.Shines reg k p → Even (f.Conducts reg) (f.level k) p

/-- A cell that sheds no more light stays so: around it levels only grow. -/
theorem Calm.of_relit {f' : LightField} (hc : Calm reg f p) (h : Relit reg A f f') :
    Calm reg f' p := by
  intro k hk
  rw [h.shines] at hk
  rw [h.conducts]
  exact (h.grown k).even_of_even (hc k hk)

open Classical in
/-- What each cell has to shed: its level if light flows out of it. -/
noncomputable def shed (reg : Registry) (f : LightField) (k : LightKind) : Levels :=
  fun q => if f.Shines reg k q then f.level k q else 0

/-! ## Light of a region -/

section Region

variable {Q : Pos → Prop} {f' : LightField} {B : Levels}

open Classical in
/-- What the cells of a region have to shed. -/
noncomputable def shedIn (reg : Registry) (Q : Pos → Prop) (f : LightField) (k : LightKind) :
    Levels := fun q => if Q q ∧ f.Shines reg k q then f.level k q else 0

/-- The light that a cell holds, or the most that reaches it on a way within the region. -/
noncomputable def carriedIn (reg : Registry) (Q : Pos → Prop) (f : LightField) (k : LightKind)
    (p : Pos) : Nat :=
  max (f.level k p) (brightest (fun q => Q q ∧ f.Conducts reg q) (shedIn reg Q f k) p)

theorem shedIn_le (q : Pos) : shedIn reg Q f k q ≤ f.level k q := by
  unfold shedIn
  split
  · exact le_rfl
  · exact Nat.zero_le _

/-- A bound out of which no light of the region would flow is a bound for what is carried in it. -/
theorem carriedIn_le (hL : ∀ q, f.level k q ≤ maxLight) (hB : ∀ q, f.level k q ≤ B q)
    (heven : ∀ a, Q a → f.Shines reg k a → Even (f.Conducts reg) B a) :
    carriedIn reg Q f k p ≤ B p := by
  have hg : ∀ q, shedIn reg Q f k q ≤ maxLight := fun q => (shedIn_le q).trans (hL q)
  apply max_le (hB p)
  rcases exists_brightest (C := fun q => Q q ∧ f.Conducts reg q) (p := p) hg with
    ⟨s, n, hwalk, hs⟩
  rw [hs]
  refine hwalk.le_of_even (fun q => (shedIn_le q).trans (hB q)) fun q hq => ?_
  have hshines : Q q ∧ f.Shines reg k q := by
    rcases hq with hpos | hC
    · by_contra hno
      have hdark : shedIn reg Q f k q = 0 := if_neg hno
      omega
    · exact ⟨hC.1, hC.2.shines⟩
  exact (heven q hshines.1 hshines.2).mono fun _ hq => hq.2

/-- In the region of all cells this is the light that all of them shed. -/
theorem carriedIn_univ : carriedIn reg (fun _ => True) f k p =
    max (f.level k p) (brightest (f.Conducts reg) (shed reg f k) p) := by
  have hcells : (fun q => True ∧ f.Conducts reg q) = f.Conducts reg :=
    funext fun q => true_and _
  have hshed : shedIn reg (fun _ => True) f k = shed reg f k := by
    funext q
    unfold shedIn shed
    by_cases hq : f.Shines reg k q
    · rw [if_pos hq, if_pos ⟨trivial, hq⟩]
    · rw [if_neg hq, if_neg fun h => hq h.2]
  unfold carriedIn
  rw [hcells, hshed]

/-- Once no more light would flow, each cell holds what it held or the most that could reach it,
in whatever order the light was spread. -/
theorem Relit.eq_carried (h : Relit reg A f f') (hL : ∀ q, f.level k q ≤ maxLight)
    (hcalm : ∀ q, Calm reg f' q) (p : Pos) :
    f'.level k p = max (f.level k p) (brightest (f.Conducts reg) (shed reg f k) p) := by
  have hmono := (h.grown k).mono
  apply Nat.le_antisymm
  · by_cases hlt : f.level k p < f'.level k p
    · rcases h.traced k p hlt with ⟨s, n, hs, hwalk, hle⟩
      have hg : ∀ q, shed reg f k q ≤ maxLight := by
        intro q
        unfold shed
        split
        · exact hL q
        · exact Nat.zero_le _
      have hreach := le_brightest hg hwalk
      have hown : shed reg f k s = f.level k s := if_pos hs
      omega
    · omega
  · -- the light of a walk is still there at its end
    rw [← carriedIn_univ]
    apply carriedIn_le hL hmono
    intro a _ hshines
    have hcool := hcalm a k
    rw [h.shines, h.conducts] at hcool
    exact hcool hshines

/-- With each step within the region no more than one level is lost. -/
theorem carriedIn_step (hL : ∀ q, f.level k q ≤ maxLight) (ha : Q a) (hshines : f.Shines reg k a)
    (hadj : Adjacent a b) (hb : Q b) (hC : f.Conducts reg b) :
    carriedIn reg Q f k a ≤ carriedIn reg Q f k b + 1 := by
  have hg : ∀ q, shedIn reg Q f k q ≤ maxLight := fun q => (shedIn_le q).trans (hL q)
  have hout : brightest (fun q => Q q ∧ f.Conducts reg q) (shedIn reg Q f k) b ≤
      carriedIn reg Q f k b := le_max_right _ _
  apply max_le
  · have hown : shedIn reg Q f k a = f.level k a := if_pos ⟨ha, hshines⟩
    have hwalk : Walk (fun q => Q q ∧ f.Conducts reg q) (0 + 1) a b :=
      (Walk.nil a).snoc hadj ⟨hb, hC⟩
    have hreach := le_brightest hg hwalk
    omega
  · rcases exists_brightest (C := fun q => Q q ∧ f.Conducts reg q) (p := a) hg with
      ⟨s, n, hwalk, hs⟩
    have hreach := le_brightest hg (hwalk.snoc hadj ⟨hb, hC⟩)
    omega

/-- If no light would flow out of a region under a bound that holds outside of it, spreading the
region leaves there what is carried in it, and nothing changes outside. -/
theorem RelitIn.eq_carriedIn (h : RelitIn reg A Q f f') (hL : ∀ q, f.level k q ≤ maxLight)
    (hB : Under Q B (f.level k))
    (heven : ∀ a, Q a → f.Shines reg k a → Even (f.Conducts reg) B a)
    (hcalm : ∀ q, Q q → Calm reg f' q) (hp : Q p) :
    f'.level k p = carriedIn reg Q f k p := by
  classical
  have hmono := (h.grown k).mono
  apply Nat.le_antisymm
  · -- what is carried in the region, and the bound outside, is a bound of the same kind
    have hunder : Under Q (fun q => if Q q then carriedIn reg Q f k q else B q) (f'.level k) := by
      apply h.under k
      · intro a ha hshines b hsteep
        rcases hsteep with ⟨hadj, hC, hlt⟩
        simp only [if_pos ha] at hlt
        by_cases hb : Q b
        · rw [if_pos hb] at hlt
          have := carriedIn_step hL ha hshines hadj hb hC
          omega
        · rw [if_neg hb] at hlt
          have hle : carriedIn reg Q f k a ≤ B a := carriedIn_le hL hB.le heven
          have := (heven a ha hshines).le hadj hC
          omega
      · constructor
        · intro q
          split
          · exact le_max_left _ _
          · exact hB.le q
        · intro q hq
          rw [if_neg hq]
          exact hB.eq q hq
    have hle := hunder.le p
    rwa [if_pos hp] at hle
  · -- the levels after relighting bound what is carried, since no cell of the region sheds any more
    apply carriedIn_le hL hmono
    intro a ha hshines
    have hcool := hcalm a ha k
    rw [h.shines, h.conducts] at hcool
    exact hcool hshines

end Region

variable {Q : Pos → Prop}

include laws in
/-- Spreading one channel of a cell at its own level. -/
theorem spreadOwn_ensures {vol : V} (hgood : Good vol) (hp : A p) (hQ : Q p)
    (hshines : (LightVolume.field vol).Shines reg k p) :
    Ensures faulty (spread reg vol p k ((LightVolume.field vol).level k p)) fun vol' =>
      Good vol' ∧ RelitIn reg A Q (LightVolume.field vol) (LightVolume.field vol') ∧
      Even ((LightVolume.field vol).Conducts reg) ((LightVolume.field vol').level k) p := by
  have hshow : Shows Good (LightVolume.field vol) k vol _ := Shows.refl hgood
  -- a dark cell has nothing to spread
  rcases Nat.eq_zero_or_pos ((LightVolume.field vol).level k p) with h0 | hpos
  · rw [h0, spread_zero]
    refine Ensures.ok ⟨hgood, RelitIn.refl, ?_⟩
    intro n hn
    rcases hn with ⟨_, _, hlt⟩
    omega
  · apply (spread_ensures laws hshow hp hpos (hshow.level_le laws p)).mono
    intro vol' hvol'
    rcases hvol' with ⟨L', hshow', hspr⟩
    rw [hshow'.levels]
    -- all but the levels of this channel is as it was
    refine ⟨hshow'.good, ⟨⟨?_, ?_, fun j => ?_, fun j q hlt => ?_⟩, fun j B heven hB => ?_⟩,
      hspr.even⟩
    · rw [hshow'.field_eq, LightField.accepts_withLevels]
    · rw [hshow'.field_eq, LightField.block_withLevels]
    · by_cases hj : j = k
      · subst hj
        rw [hshow'.levels]
        exact hspr.grown_of_own
      · rw [hshow'.field_eq, LightField.level_withLevels_of_ne _ _ hj]
        exact Grown.refl
    · by_cases hj : j = k
      · subst hj
        rw [hshow'.levels] at hlt ⊢
        have htraced := hspr.traced (hshow'.level_le laws) q
        rw [Function.update_eq_self] at htraced
        rcases htraced hlt with ⟨n, hwalk, hle⟩
        exact ⟨p, n, hshines, hwalk, hle⟩
      · rw [hshow'.field_eq, LightField.level_withLevels_of_ne _ _ hj] at hlt
        exact absurd hlt (lt_irrefl _)
    · by_cases hj : j = k
      · subst hj
        rw [hshow'.levels]
        refine hspr.under (hshow'.level_le laws) hB hQ (hB.le p) fun a ha hout => heven a ha ?_
        rcases hout with rfl | hC
        · exact hshines
        · exact hC.shines
      · rw [hshow'.field_eq, LightField.level_withLevels_of_ne _ _ hj]
        exact hB

include laws in
/-- One channel of a cell, spread if the cell is lit and lets light out. -/
theorem spreadLit_ensures {vol : V} (hgood : Good vol) (hp : A p) (hQ : Q p) {out : Bool}
    (hout : (LightVolume.field vol).Shines reg k p ↔ out = true) :
    Ensures faulty (if (decide ((LightVolume.field vol).level k p > 0) && out) = true then
        spread reg vol p k ((LightVolume.field vol).level k p) else pure vol) fun vol' =>
      Good vol' ∧ RelitIn reg A Q (LightVolume.field vol) (LightVolume.field vol') ∧
      ((LightVolume.field vol).Shines reg k p →
        Even ((LightVolume.field vol).Conducts reg) ((LightVolume.field vol').level k) p) := by
  refine Ensures.ite (fun hyes => ?_) fun hno => ?_
  · rw [Bool.and_eq_true] at hyes
    apply (spreadOwn_ensures laws hgood hp hQ (hout.2 hyes.2)).mono
    intro vol' hvol'
    rcases hvol' with ⟨hgood', hrelit, heven⟩
    exact ⟨hgood', hrelit, fun _ => heven⟩
  · refine Ensures.pure ⟨hgood, RelitIn.refl, fun hsh => ?_⟩
    intro n hn
    rcases hn with ⟨_, _, hlt⟩
    apply hno
    rw [hout.1 hsh, Bool.and_true, decide_eq_true_eq]
    omega

include laws in
/-- Block light of a cell, after sky light was seen to; sky light stays calm. -/
theorem relightBlock_ensures {vol₀ vol : V} (hgood : Good vol) (hp : A p) (hQ : Q p)
    (hrelit : RelitIn reg A Q (LightVolume.field vol₀) (LightVolume.field vol))
    (heven : (LightVolume.field vol₀).Shines reg .sky p →
      Even ((LightVolume.field vol₀).Conducts reg) ((LightVolume.field vol).level .sky) p) :
    Ensures faulty (do
      let level ← LightVolume.light vol p .block
      if (decide (level > 0) && ((reg.get ((LightVolume.field vol₀).block p)).translucent ||
          decide ((reg.get ((LightVolume.field vol₀).block p)).luminance > 0))) = true then
        spread reg vol p .block level
      else pure vol) fun vol' =>
      Good vol' ∧ RelitIn reg A Q (LightVolume.field vol₀) (LightVolume.field vol') ∧
      Calm reg (LightVolume.field vol') p := by
  apply (laws.light hgood (Near.inside hp) .block).bind_eq
  refine (spreadLit_ensures laws hgood hp hQ ?_).mono ?_
  · -- the test of the loop asks whether block light flows out of the cell
    have hacc := (laws.accepts_iff hgood p).2 hp
    rw [hrelit.accepts] at hacc
    rw [hrelit.shines, LightField.shines_block hacc, Bool.or_eq_true, decide_eq_true_eq]
    exact Iff.rfl
  · intro vol' hvol'
    rcases hvol' with ⟨hgood', hrelit', heven'⟩
    refine ⟨hgood', hrelit.trans hrelit', fun k hk => ?_⟩
    rw [hrelit'.shines, hrelit.shines] at hk
    rw [hrelit'.conducts, hrelit.conducts]
    -- sky light was seen to before, and spreading block light does not touch it
    cases k with
    | sky =>
      have hgrown := hrelit'.grown .sky
      rw [hrelit.conducts] at hgrown
      exact hgrown.even_of_even (heven hk)
    | block =>
      have heven'' := heven' (by rw [hrelit.shines]; exact hk)
      rwa [hrelit.conducts] at heven''

include laws in
/-- Relighting one cell spreads both channels from it, and leaves it calm. -/
theorem relightCell_ensures {vol : V} (hgood : Good vol) (hp : A p) (hQ : Q p) :
    Ensures faulty (relightCell reg p vol) fun vol' =>
      Good vol' ∧ RelitIn reg A Q (LightVolume.field vol) (LightVolume.field vol') ∧
      Calm reg (LightVolume.field vol') p := by
  unfold relightCell
  apply (laws.block hgood (Near.inside hp)).bind_eq
  apply (laws.light hgood (Near.inside hp) .sky).bind_eq
  have hout : (LightVolume.field vol).Shines reg .sky p ↔
      (reg.get ((LightVolume.field vol).block p)).translucent = true :=
    LightField.shines_sky ((laws.accepts_iff hgood p).2 hp)
  have hsky := spreadLit_ensures laws hgood hp hQ hout
  -- the rest of the code stands in both branches of the choice
  by_cases hc : (decide ((LightVolume.field vol).level .sky p > 0) &&
      (reg.get ((LightVolume.field vol).block p)).translucent) = true
  · rw [if_pos hc] at hsky ⊢
    apply hsky.bind
    intro vol₁ hvol₁
    rcases hvol₁ with ⟨hgood₁, hrelit₁, heven₁⟩
    exact relightBlock_ensures laws hgood₁ hp hQ hrelit₁ heven₁
  · rw [if_neg hc] at hsky ⊢
    apply hsky.bind
    intro vol₁ hvol₁
    rcases hvol₁ with ⟨hgood₁, hrelit₁, heven₁⟩
    exact relightBlock_ensures laws hgood₁ hp hQ hrelit₁ heven₁

include laws in
/-- All cells of a chunk. -/
theorem relight_ensures {vol : V} {c : ChunkCoord} {d : Dims} (hgood : Good vol)
    (hbase : ¬ (FitsCoord (c.x * d.width) ∧ FitsCoord (c.z * d.depth)) → faulty)
    (hcells : ∀ x ∈ sideRange d.width, ∀ z ∈ sideRange d.depth,
      ¬ (FitsCoord (c.x * d.width + x) ∧ FitsCoord (c.z * d.depth + z)) → faulty)
    (hin : ∀ x ∈ sideRange d.width, ∀ z ∈ sideRange d.depth, ∀ y ∈ sideRange d.height,
      A ⟨c.x * d.width + x, y, c.z * d.depth + z⟩)
    (hQ : ∀ x ∈ sideRange d.width, ∀ z ∈ sideRange d.depth, ∀ y ∈ sideRange d.height,
      Q ⟨c.x * d.width + x, y, c.z * d.depth + z⟩) :
    Ensures faulty (relight reg vol c d) fun vol' =>
      Good vol' ∧ RelitIn reg A Q (LightVolume.field vol) (LightVolume.field vol') ∧
      ∀ x ∈ sideRange d.width, ∀ z ∈ sideRange d.depth, ∀ y ∈ sideRange d.height,
        Calm reg (LightVolume.field vol') ⟨c.x * d.width + x, y, c.z * d.depth + z⟩ := by
  unfold relight ChunkCoord.worldX ChunkCoord.worldZ
  apply (checkCoord_ensures _ fun h => hbase fun h' => h h'.1).bind_eq
  apply (checkCoord_ensures _ fun h => hbase fun h' => h h'.2).bind_eq
  have hrefl : ∀ v : V, RelitIn reg A Q (LightVolume.field v) (LightVolume.field v) :=
    fun _ => RelitIn.refl
  have htrans : ∀ u v w : V, RelitIn reg A Q (LightVolume.field u) (LightVolume.field v) →
      RelitIn reg A Q (LightVolume.field v) (LightVolume.field w) →
      RelitIn reg A Q (LightVolume.field u) (LightVolume.field w) := fun _ _ _ => RelitIn.trans
  -- a calm cell stays calm while the rest of the chunk is spread
  refine Ensures.foldlM_all hrefl htrans
    (fun x u v h hx z hz y hy => (hx z hz y hy).of_relit h.toRelit) (fun x u hx hu => ?_) hgood
  refine Ensures.foldlM_all hrefl htrans
    (fun z u v h hz y hy => (hz y hy).of_relit h.toRelit) (fun z u hz hu => ?_) hu
  refine Ensures.foldlM_all hrefl htrans
    (fun y u v h hy => hy.of_relit h.toRelit) (fun y u hy hu => ?_) hu
  apply (checkCoord_ensures _ fun h => hcells x hx z hz fun h' => h h'.1).bind_eq
  apply (checkCoord_ensures _ fun h => hcells x hx z hz fun h' => h h'.2).bind_eq
  exact relightCell_ensures laws hu (hin x hx z hz y hy) (hQ x hx z hz y hy)

end Light

end VoxelWorld
