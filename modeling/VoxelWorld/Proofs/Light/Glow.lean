import VoxelWorld.Proofs.Light.Column

/-!
# Proofs.Light.Glow — block light through an edit

All blocks that give off light do so with one luminance, and `top` is the level it gives.

* `OldRetracted` and `NewSpread` are the two steps by which block light follows an edit.
* `Glow` is the state of block light while some parts are hot, that is, have light that was
  not spread: nothing is brighter than `top`, blocks that stop light are dark or shine, and
  light would flow out of hot cells only. An edit keeps it (`Glow.edit`).
* `Glowing` is the state without hot parts: in addition all shining cells are lit and all light
  comes from them. An edit keeps it (`Glowing.edit`), and the levels are the light from
  scratch (`Glowing.eq_brightest`).
-/

namespace VoxelWorld.Light

variable {reg : Registry} {f g : LightField} {A C Hot Hot' : Pos → Prop} {top emitted : Nat}
  {L M L' : Levels} {p q : Pos} {reason : Prop}

/-! ## The steps of an edit -/

/-- The light of a cell was taken back, if it had some and there was reason to. -/
def OldRetracted (A C : Pos → Prop) (L : Levels) (p : Pos) (reason : Prop) (L' : Levels) : Prop :=
  0 < L p ∧ reason ∧ Retracted A C L p (L p) L' ∨ (L p = 0 ∨ ¬ reason) ∧ L' = L

/-- The light that the cell now gives off or lets through was spread. -/
inductive NewSpread (A C : Pos → Prop) (L : Levels) (p : Pos) (emitted : Nat) : Levels → Prop
  /-- The cell gives off light. -/
  | source {L' : Levels} : 0 < emitted → SpreadFrom A C L p (min emitted maxLight) L' →
      NewSpread A C L p emitted L'
  /-- The cell lets light through, and some comes in. -/
  | through {v : Nat} {L' : Levels} : emitted = 0 → C p → 0 < v → Refreshed C L p v →
      SpreadFrom A C L p v L' → NewSpread A C L p emitted L'
  /-- The cell lets light through, and none comes in. -/
  | dark : emitted = 0 → C p → Refreshed C L p 0 → L p = 0 → NewSpread A C L p emitted L
  /-- The cell stops light. -/
  | closed : emitted = 0 → ¬ C p → NewSpread A C L p emitted L

namespace OldRetracted

/-- Cells that light cannot enter keep their level, unless it is taken back. -/
theorem eq_of_not (h : OldRetracted A C L p reason M) (hq : ¬ C q) (hne : q ≠ p) : M q = L q := by
  rcases h with ⟨-, -, hret⟩ | ⟨-, rfl⟩
  · rw [hret.eq_of_not hq, if_neg hne]
  · rfl

/-- The edited cell is dark if it stops light. -/
theorem eq_zero (h : OldRetracted A C L p reason M) (hp : ¬ C p) (hreason : ¬ C p → reason) :
    M p = 0 := by
  rcases h with ⟨-, -, hret⟩ | ⟨h0 | hno, rfl⟩
  · rw [hret.eq_of_not hp, if_pos rfl]
  · exact h0
  · exact absurd (hreason hp) hno

theorem le_bound {m : Nat} (h : OldRetracted A C L p reason M) (hL : ∀ q, L q ≤ m)
    (hM : ∀ q, M q ≤ maxLight) (q : Pos) : M q ≤ m := by
  rcases h with ⟨-, -, hret⟩ | ⟨-, rfl⟩
  · exact hret.le_bound (fun q _ => hL q) hM q
  · exact hL q

/-- Other cells that are as bright as the edited one do not get darker. -/
theorem le_of_le (h : OldRetracted A C L p reason M) (hne : q ≠ p) (hle : L p ≤ L q) :
    L q ≤ M q := by
  rcases h with ⟨-, -, hret⟩ | ⟨-, rfl⟩
  · exact hret.le_of_le hne hle
  · exact le_rfl

end OldRetracted

namespace NewSpread

/-- Cells that light cannot enter keep their level. -/
theorem eq_of_not (h : NewSpread A C M p emitted L') (hq : ¬ C q) (hne : q ≠ p) : L' q = M q := by
  cases h with
  | source _ hspread => exact hspread.eq_of_not hq hne
  | through _ _ _ _ hspread => exact hspread.eq_of_not hq hne
  | dark => rfl
  | closed => rfl

/-- The level that the cell gets from the cells around it is no brighter than those. -/
theorem refreshed_le {v : Nat} (href : Refreshed C M p v) (hM : ∀ q, M q ≤ top) : v ≤ top := by
  rcases Nat.eq_zero_or_pos v with h0 | hpos
  · omega
  · rcases href.fed hpos with heq | ⟨n, -, hn⟩
    · rw [heq]
      exact hM p
    · have := hM n
      omega

/-- Spreading stays within a bound if what the cell gives off does. -/
theorem le_bound (h : NewSpread A C M p emitted L') (hM : ∀ q, M q ≤ top)
    (hemit : 0 < emitted → min emitted maxLight ≤ top) (hL' : ∀ q, L' q ≤ maxLight) (q : Pos) :
    L' q ≤ top := by
  cases h with
  | source hpos hspread => exact hspread.le_bound hM (hemit hpos) hL' q
  | through _ _ _ href hspread => exact hspread.le_bound hM (refreshed_le href hM) hL' q
  | dark => exact hM q
  | closed => exact hM q

/-- No cell gets darker. -/
theorem mono (h : NewSpread A C M p emitted L') (hemit : 0 < emitted → M p ≤ min emitted maxLight)
    (q : Pos) : M q ≤ L' q := by
  cases h with
  | source hpos hspread => exact hspread.mono (hemit hpos) q
  | through _ hC _ href hspread => exact hspread.mono (href.own hC) q
  | dark => exact le_rfl
  | closed => exact le_rfl

/-- No other cell gets darker, however bright the edited one was. -/
theorem mono_of_ne (h : NewSpread A C M p emitted L') (hq : q ≠ p) : M q ≤ L' q := by
  have hspread : ∀ {v}, SpreadFrom A C M p v L' → M q ≤ L' q := by
    intro v hspread
    have hmono := hspread.grown.mono q
    rwa [Function.update_of_ne hq] at hmono
  cases h with
  | source _ h => exact hspread h
  | through _ _ _ _ h => exact hspread h
  | dark => exact le_rfl
  | closed => exact le_rfl

/-- A cell that gives off light holds it, and no more. -/
theorem eq_self (h : NewSpread A C M p emitted L') (hpos : 0 < emitted) :
    L' p = min emitted maxLight := by
  cases h with
  | source _ hspread => exact hspread.origin
  | through h0 => omega
  | dark h0 => omega
  | closed h0 => omega

/-- No light would flow out of such a cell. -/
theorem even_self (h : NewSpread A C M p emitted L') (hpos : 0 < emitted) : Even C L' p := by
  cases h with
  | source _ hspread => exact hspread.even
  | through h0 => omega
  | dark h0 => omega
  | closed h0 => omega

/-- No pair gets steep, and none is left into the cell. -/
theorem steep {a b : Pos} (h : NewSpread A C M p emitted L')
    (hemit : 0 < emitted → ∀ q, M q ≤ min emitted maxLight) (hs : Steep C L' a b) :
    Steep C M a b ∧ b ≠ p := by
  cases h with
  | source hpos hspread =>
    rcases hspread.steep (hemit hpos p) hs with ⟨hs', -, hinto⟩
    refine ⟨hs', fun hbp => ?_⟩
    have hlt := hinto hbp
    have hle := hemit hpos a
    omega
  | through _ hC _ href hspread =>
    -- the cell is bright enough for all that lies around it
    rcases hspread.steep (href.own hC) hs with ⟨hs', -, hinto⟩
    refine ⟨hs', fun hbp => ?_⟩
    have hlt := hinto hbp
    have hadj := hs'.1
    rw [hbp] at hadj
    have hle := href.around hC a hadj.symm
    omega
  | dark _ hC href h0 =>
    refine ⟨hs, fun hbp => ?_⟩
    rcases hs with ⟨hadj, -, hlt⟩
    rw [hbp] at hadj hlt
    have hle := href.around hC a hadj.symm
    omega
  | closed _ hC =>
    refine ⟨hs, fun hbp => hC ?_⟩
    rw [← hbp]
    exact hs.2.1

end NewSpread

/-! ## While parts are hot -/

/-- The cell holds a block that gives off light. -/
def Emits (reg : Registry) (f : LightField) (q : Pos) : Prop := 0 < reg.luminance (f.block q)

/-- The state of block light. -/
structure Glow (reg : Registry) (f : LightField) (A : Pos → Prop) (top : Nat)
    (Hot : Pos → Prop) (L : Levels) : Prop where
  le : ∀ q, L q ≤ top
  stopped : ∀ q, A q → ¬ f.Conducts reg q → L q = 0 ∨ Emits reg f q ∧ L q = top
  steep : ∀ a b, A a → Steep (f.Conducts reg) L a b → Hot a

/-- All blocks that give off light give it off at one level. -/
def OneGlow (reg : Registry) (top : Nat) : Prop :=
  ∀ id, 0 < reg.luminance id → min (reg.luminance id) maxLight = top

/-- The levels of the field itself play no part. -/
theorem Glow.congr (hg : Glow reg f A top Hot L) (hacc : g.accepts = f.accepts)
    (hblock : g.block = f.block) : Glow reg g A top Hot L := by
  have hC : g.Conducts reg = f.Conducts reg := LightField.conducts_congr hacc hblock
  refine ⟨hg.le, ?_, ?_⟩
  · unfold Emits
    rw [hC, hblock]
    exact hg.stopped
  · rw [hC]
    exact hg.steep

/-- Spreading keeps the state, and what it evened out is no longer hot. -/
theorem Glow.grown (hg : Glow reg f A top Hot L) (hgrown : Grown A (f.Conducts reg) L L')
    (hle : ∀ q, L' q ≤ maxLight)
    (hcool : ∀ a, A a → f.Conducts reg a ∨ Emits reg f a → Hot a →
      Hot' a ∨ Even (f.Conducts reg) L' a) : Glow reg f A top Hot' L' where
  le := hgrown.le_bound hg.le hle
  stopped q hq hC := by
    rw [hgrown.eq_of_not hC]
    exact hg.stopped q hq hC
  steep a b ha hsteep := by
    rcases hgrown.steep hsteep with ⟨hsteep', heq⟩
    -- light flows out of a cell that it enters or that gives it off; any other is dark
    have hout : f.Conducts reg a ∨ Emits reg f a := by
      by_cases hC : f.Conducts reg a
      · exact .inl hC
      · rcases hg.stopped a ha hC with h0 | ⟨hemits, -⟩
        · have := hsteep'.2.2
          omega
        · exact .inr hemits
    rcases hcool a ha hout (hg.steep a b ha hsteep') with hhot | heven
    · exact hhot
    · exact absurd hsteep (heven b)

section Edit

variable (hacc : g.accepts = f.accepts) (hsame : ∀ q, q ≠ p → g.block q = f.block q)

include hacc hsame in
/-- After taking back what the old block gave, light would flow out of hot cells, or into the
edited one. -/
theorem Glow.oldRetracted (hg : Glow reg f A top Hot L)
    (hreason : ¬ g.Conducts reg p → reason) (hold : OldRetracted A (g.Conducts reg) L p reason M) :
    (∀ q, q ≠ p → A q → ¬ g.Conducts reg q → M q = 0 ∨ Emits reg g q ∧ M q = top) ∧
      ∀ a b, A a → Steep (g.Conducts reg) M a b → Hot a ∨ b = p := by
  have hstopped : ∀ q, q ≠ p → A q → ¬ g.Conducts reg q →
      M q = L q ∧ (M q = 0 ∨ Emits reg g q ∧ M q = top) := by
    intro q hqp hq hC
    have heq := hold.eq_of_not hC hqp
    have hC' : ¬ f.Conducts reg q :=
      fun h => hC ((LightField.conducts_iff_of_edit hacc hsame hqp).2 h)
    refine ⟨heq, ?_⟩
    rw [heq]
    unfold Emits
    rw [hsame q hqp]
    exact hg.stopped q hq hC'
  refine ⟨fun q hqp hq hC => (hstopped q hqp hq hC).2, fun a b ha hsteep => ?_⟩
  by_cases hbp : b = p
  · exact .inr hbp
  -- a steep pair elsewhere was steep under the old blocks
  have hback : Steep (g.Conducts reg) L a b → Hot a := by
    intro hs
    rcases hs with ⟨hadj, hC, hlt⟩
    exact hg.steep a b ha ⟨hadj, (LightField.conducts_iff_of_edit hacc hsame hbp).1 hC, hlt⟩
  left
  by_cases hC : g.Conducts reg a
  · rcases hold with ⟨-, -, hret⟩ | ⟨-, rfl⟩
    · exact hback (hret.steep ha (.inl hC) hsteep).1
    · exact hback hsteep
  · by_cases hap : a = p
    · rw [hap] at hC hsteep
      have h0 := hold.eq_zero hC hreason
      have hlt := hsteep.2.2
      omega
    · rcases hstopped a hap ha hC with ⟨heq, h0 | ⟨-, htop⟩⟩
      · have hlt := hsteep.2.2
        omega
      · rcases hold with ⟨-, -, hret⟩ | ⟨-, rfl⟩
        · refine hback (hret.steep ha (.inr ?_) hsteep).1
          rw [← heq, htop]
          exact hg.le p
        · exact hback hsteep

include hacc hsame in
/-- An edit keeps the state of block light with the same hot parts. -/
theorem Glow.edit (hg : Glow reg f A top Hot L) (hone : OneGlow reg top)
    (hreason : ¬ g.Conducts reg p → reason) (hM : ∀ q, M q ≤ maxLight)
    (hL' : ∀ q, L' q ≤ maxLight) (hold : OldRetracted A (g.Conducts reg) L p reason M)
    (hnew : NewSpread A (g.Conducts reg) M p (reg.luminance (g.block p)) L') :
    Glow reg g A top Hot L' := by
  rcases hg.oldRetracted hacc hsame hreason hold with ⟨hstopped, hsteep⟩
  have hle := hold.le_bound hg.le hM
  have hemit : 0 < reg.luminance (g.block p) →
      ∀ q, M q ≤ min (reg.luminance (g.block p)) maxLight := by
    intro hpos q
    rw [hone _ hpos]
    exact hle q
  refine ⟨hnew.le_bound hle (fun hpos => (hone _ hpos).le) hL', ?_, ?_⟩
  · intro q hq hC
    -- a cell that stops light holds the light of its own block or none
    by_cases hqp : q = p
    · rw [hqp] at hC ⊢
      have h0 := hold.eq_zero hC hreason
      cases hnew with
      | source hpos hspread =>
        refine .inr ⟨hpos, ?_⟩
        rw [hspread.origin, hone _ hpos]
      | through _ hC' => exact absurd hC' hC
      | dark _ hC' => exact absurd hC' hC
      | closed => exact .inl h0
    · rw [hnew.eq_of_not hC hqp]
      exact hstopped q hqp hq hC
  · intro a b ha hs
    rcases hnew.steep hemit hs with ⟨hs', hbp⟩
    exact (hsteep a b ha hs').resolve_right hbp

end Edit

/-! ## Without hot parts -/

/-- The shining cells of the region. -/
def EmitsIn (reg : Registry) (f : LightField) (A : Pos → Prop) (q : Pos) : Prop :=
  A q ∧ Emits reg f q

/-- Block light as it should be. -/
structure Glowing (reg : Registry) (f : LightField) (A : Pos → Prop) (top : Nat)
    (L : Levels) : Prop extends Glow reg f A top (fun _ => False) L where
  dark : ∀ q, ¬ A q → L q = 0
  lit : ∀ q, EmitsIn reg f A q → L q = top
  supported : Supported A (f.Conducts reg) (EmitsIn reg f A) L

namespace Glowing

/-- The levels of the field itself play no part. -/
theorem congr (hg : Glowing reg f A top L) (hacc : g.accepts = f.accepts)
    (hblock : g.block = f.block) : Glowing reg g A top L := by
  have hC : g.Conducts reg = f.Conducts reg := LightField.conducts_congr hacc hblock
  have hemits : EmitsIn reg g A = EmitsIn reg f A := by
    unfold EmitsIn Emits
    rw [hblock]
  refine ⟨hg.toGlow.congr hacc hblock, hg.dark, ?_, ?_⟩
  · rw [hemits]
    exact hg.lit
  · rw [hC, hemits]
    exact hg.supported

/-- Spreading changes nothing about it. -/
theorem grown (hg : Glowing reg f A top L) (hA : ∀ q, f.accepts q = true ↔ A q)
    (hgrown : Grown A (f.Conducts reg) L L') (hle : ∀ q, L' q ≤ maxLight) :
    Glowing reg f A top L' where
  toGlow := hg.toGlow.grown hgrown hle fun a _ _ hhot => absurd hhot id
  dark q hq := by
    rw [hgrown.eq_of_not fun hC => hq ((hA q).1 hC.1)]
    exact hg.dark q hq
  lit q hq := by
    have hmono := hgrown.mono q
    rw [hg.lit q hq] at hmono
    exact Nat.le_antisymm (hgrown.le_bound hg.le hle q) hmono
  supported := hgrown.supported hg.supported

/-- The levels are the light from scratch. -/
theorem eq_brightest (hg : Glowing reg f A top L) (hA : ∀ q, f.accepts q = true ↔ A q)
    (hle : ∀ q, L q ≤ maxLight) {given : Levels}
    (hlit : ∀ q, EmitsIn reg f A q → given q = top)
    (hunlit : ∀ q, ¬ EmitsIn reg f A q → given q = 0) (hp : A p) :
    L p = brightest (f.Conducts reg) given p := by
  refine Light.eq_brightest (S := EmitsIn reg f A) ?_ hle ?_ hg.supported ?_ hp
  · intro q
    by_cases hq : EmitsIn reg f A q
    · rw [hlit q hq, hg.lit q hq]
    · rw [hunlit q hq]
      exact Nat.zero_le _
  · intro q hq
    rw [hlit q hq]
    exact hg.le q
  · intro q hq b hsteep
    -- outside the region nothing is given off
    have hin : A q := by
      rcases hq with hpos | hC
      · by_contra hno
        rw [hunlit q fun hem => hno hem.1] at hpos
        exact absurd hpos (lt_irrefl 0)
      · exact (hA q).1 hC.1
    exact hg.steep q b hin hsteep

section Edit

variable (hacc : g.accepts = f.accepts) (hsame : ∀ q, q ≠ p → g.block q = f.block q)

include hacc hsame in
/-- What is left after taking back what the old block gave comes from the other shining cells. -/
theorem oldRetracted (hg : Glowing reg f A top L)
    (hreason : Emits reg f p ∨ ¬ g.Conducts reg p → reason) (hp : A p)
    (hold : OldRetracted A (g.Conducts reg) L p reason M) :
    Supported A (g.Conducts reg) (fun q => EmitsIn reg f A q ∧ q ≠ p) M := by
  have hrest : ∀ q, q ≠ p → A q → 0 < L q → EmitsIn reg f A q ∨
      g.Conducts reg q ∧ ∃ n, Adjacent q n ∧ A n ∧ L q < L n := by
    intro q hqp hq hpos
    rcases hg.supported q hq hpos with hs | ⟨hC, hfed⟩
    · exact .inl hs
    · exact .inr ⟨(LightField.conducts_iff_of_edit hacc hsame hqp).2 hC, hfed⟩
  rcases hold with ⟨-, -, hret⟩ | ⟨hno, rfl⟩
  · exact hret.supported le_rfl hrest
  · intro q hq hpos
    by_cases hqp : q = p
    · subst hqp
      -- the cell is lit and was not taken back, so it lets light through and does not shine
      have hnr : ¬ reason := by
        rcases hno with h0 | hnr
        · omega
        · exact hnr
      rcases hg.supported q hp hpos with hs | ⟨-, hfed⟩
      · exact absurd (hreason (.inl hs.2)) hnr
      · refine .inr ⟨?_, hfed⟩
        by_contra hC
        exact hnr (hreason (.inr hC))
    · rcases hrest q hqp hq hpos with hs | hfed
      · exact .inl ⟨hs, hqp⟩
      · exact .inr hfed

include hsame in
/-- The cells beside the edited one shine as before. -/
theorem emitsIn_iff_of_edit (hqp : q ≠ p) : EmitsIn reg g A q ↔ EmitsIn reg f A q := by
  unfold EmitsIn Emits
  rw [hsame q hqp]

include hacc in
/-- Out of the region it stays dark. -/
theorem edit_dark (hg : Glowing reg f A top L) (hA : ∀ q, f.accepts q = true ↔ A q) (hp : A p)
    (hold : OldRetracted A (g.Conducts reg) L p reason M)
    (hnew : NewSpread A (g.Conducts reg) M p emitted L') (hq : ¬ A q) : M q = 0 ∧ L' q = 0 := by
  have hC : ¬ g.Conducts reg q := by
    intro hC
    have hacc' := hC.1
    rw [hacc] at hacc'
    exact hq ((hA q).1 hacc')
  have hqp : q ≠ p := fun hqp => hq (hqp ▸ hp)
  have hM : M q = 0 := by
    rw [hold.eq_of_not hC hqp]
    exact hg.dark q hq
  refine ⟨hM, ?_⟩
  rw [hnew.eq_of_not hC hqp]
  exact hM

include hsame in
/-- The shining cells are lit again: the edited one by its own light, and of the others none
was taken back, since they are as bright as can be. -/
theorem edit_lit (hg : Glowing reg f A top L) (hone : OneGlow reg top)
    (hM : ∀ q, M q ≤ maxLight) (hL' : ∀ q, L' q ≤ top)
    (hold : OldRetracted A (g.Conducts reg) L p reason M)
    (hnew : NewSpread A (g.Conducts reg) M p (reg.luminance (g.block p)) L')
    (hq : EmitsIn reg g A q) : L' q = top := by
  -- the edited cell has the light it was given; other sources lost none and are at the top
  by_cases hqp : q = p
  · rw [hqp] at hq ⊢
    cases hnew with
    | source hpos hspread => rw [hspread.origin, hone _ hpos]
    | through h0 => exact absurd hq.2 (by unfold Emits; omega)
    | dark h0 => exact absurd hq.2 (by unfold Emits; omega)
    | closed h0 => exact absurd hq.2 (by unfold Emits; omega)
  · have hlit := hg.lit q ((emitsIn_iff_of_edit hsame hqp).1 hq)
    have hkept : L q ≤ M q := by
      refine hold.le_of_le hqp ?_
      rw [hlit]
      exact hg.le p
    have hmono : M q ≤ L' q := by
      refine hnew.mono (fun hpos => ?_) q
      rw [hone _ hpos]
      exact hold.le_bound hg.le hM p
    have htop := hL' q
    omega

include hacc hsame in
/-- All light comes from the cells that shine after the edit. -/
theorem edit_supported (hg : Glowing reg f A top L) (hA : ∀ q, f.accepts q = true ↔ A q)
    (hone : OneGlow reg top) (hreason : Emits reg f p ∨ ¬ g.Conducts reg p → reason) (hp : A p)
    (hM : ∀ q, M q ≤ maxLight) (hold : OldRetracted A (g.Conducts reg) L p reason M)
    (hnew : NewSpread A (g.Conducts reg) M p (reg.luminance (g.block p)) L') :
    Supported A (g.Conducts reg) (EmitsIn reg g A) L' := by
  have hsupp : Supported A (g.Conducts reg) (EmitsIn reg g A) M := by
    intro q hq hpos
    rcases hg.oldRetracted hacc hsame hreason hp hold q hq hpos with ⟨hs, hqp⟩ | hfed
    · exact .inl ((emitsIn_iff_of_edit hsame hqp).2 hs)
    · exact .inr hfed
  have hdark : ∀ q, ¬ A q → M q = 0 := fun q hq => (hg.edit_dark hacc hA hp hold hnew hq).1
  cases hnew with
  | source hpos hspread =>
    refine hspread.supported ?_ (fun q _ hq h0 => hsupp q hq h0) (.inl ⟨hp, hpos⟩)
    rw [hone _ hpos]
    exact hold.le_bound hg.le hM p
  | through _ hC hpos href hspread =>
    refine hspread.supported (href.own hC) (fun q _ hq h0 => hsupp q hq h0) ?_
    rcases href.fed hpos with heq | ⟨n, hadj, hn⟩
    · rw [heq] at hpos ⊢
      exact hsupp p hp hpos
    · -- the brighter neighbour is lit, so it lies in the region
      refine .inr ⟨hC, n, hadj, ?_, by omega⟩
      by_contra hno
      have := hdark n hno
      omega
  | dark => exact hsupp
  | closed => exact hsupp

include hacc hsame in
/-- After an edit block light is as it should be again, if it was so before. -/
theorem edit (hg : Glowing reg f A top L) (hA : ∀ q, f.accepts q = true ↔ A q)
    (hone : OneGlow reg top) (hreason : Emits reg f p ∨ ¬ g.Conducts reg p → reason) (hp : A p)
    (hM : ∀ q, M q ≤ maxLight) (hL' : ∀ q, L' q ≤ maxLight)
    (hold : OldRetracted A (g.Conducts reg) L p reason M)
    (hnew : NewSpread A (g.Conducts reg) M p (reg.luminance (g.block p)) L') :
    Glowing reg g A top L' := by
  have hglow := hg.toGlow.edit hacc hsame hone (fun hC => hreason (.inr hC)) hM hL' hold hnew
  exact {
    toGlow := hglow
    dark := fun q hq => (hg.edit_dark hacc hA hp hold hnew hq).2
    lit := fun q hq => hg.edit_lit hsame hone hM hglow.le hold hnew hq
    supported := hg.edit_supported hacc hsame hA hone hreason hp hM hold hnew }

end Edit

end Glowing

end VoxelWorld.Light
