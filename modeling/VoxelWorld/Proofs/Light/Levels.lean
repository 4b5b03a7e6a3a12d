import Mathlib.Order.Lattice.Nat
import VoxelWorld.Light.Flood

/-!
# Proofs.Light.Levels — one channel of light as a function of the position

The floods change the levels of one channel while blocks stay as they are. Here a channel
is a function on positions, and the outcome of a flood is a relation between two of them:

* `A` are the positions of the volume and `C` the cells that light enters.
* A `Walk` goes from cell to cell as light does.
* `Grown` relates levels before and after spreading, `Retracted` before and after
  retracting.
* A pair of cells is `Steep` if light would flow from the first into the second. Neither
  flood makes a pair steep that was not (`Grown.steep`, `Retracted.steep`).
* Levels are `Supported` if each lit cell is a source or has a brighter cell beside it. Both
  floods keep that (`Grown.supported`, `Retracted.supported`).
* `brightest` is the light from scratch: the largest level that some walk leaves over.
  Supported levels without steep pairs are just that (`eq_brightest`).
-/

namespace VoxelWorld.Light

/-! ## Neighbours -/

/-- The position one step on. -/
def shift (p : Pos) (d : Int × Int × Int) : Pos := ⟨p.x + d.1, p.y + d.2.1, p.z + d.2.2⟩

/-- One axis step leads from the first position to the second. -/
def Adjacent (p q : Pos) : Prop := ∃ d ∈ directions, q = shift p d

/-- A step can be taken back. -/
theorem Adjacent.symm {p q : Pos} (h : Adjacent p q) : Adjacent q p := by
  rcases h with ⟨d, hd, rfl⟩
  refine ⟨(-d.1, -d.2.1, -d.2.2), ?_, ?_⟩
  · simp only [directions, List.mem_cons, List.not_mem_nil, or_false] at hd ⊢
    rcases hd with rfl | rfl | rfl | rfl | rfl | rfl <;> simp
  · rcases p with ⟨x, y, z⟩
    simp [shift]

/-- A step leads to another position. -/
theorem Adjacent.ne {p q : Pos} (h : Adjacent p q) : p ≠ q := by
  rcases h with ⟨d, hd, rfl⟩
  simp only [directions, List.mem_cons, List.not_mem_nil, or_false] at hd
  intro heq
  have hx := congrArg Pos.x heq
  have hy := congrArg Pos.y heq
  have hz := congrArg Pos.z heq
  simp only [shift] at hx hy hz
  rcases hd with rfl | rfl | rfl | rfl | rfl | rfl <;> simp at hx hy hz

/-- One step leads up by one cell at most. -/
theorem Adjacent.y_le {p q : Pos} (h : Adjacent p q) : q.y ≤ p.y + 1 := by
  rcases h with ⟨d, hd, rfl⟩
  have hbound : ∀ d ∈ directions, d.2.1 ≤ 1 := by decide
  have := hbound d hd
  show p.y + d.2.1 ≤ p.y + 1
  omega

/-- The levels of one channel. -/
abbrev Levels := Pos → Nat

variable {A C S : Pos → Prop} {L L' L'' : Levels} {p q a b : Pos} {v m : Nat}

/-- Light would flow from the first cell into the second. -/
def Steep (C : Pos → Prop) (L : Levels) (a b : Pos) : Prop :=
  Adjacent a b ∧ C b ∧ L b + 1 < L a

/-- No light would flow out of the cell. -/
def Even (C : Pos → Prop) (L : Levels) (p : Pos) : Prop := ∀ q, ¬ Steep C L p q

/-- Out of an even cell no neighbour that light enters is darker by more than one. -/
theorem Even.le (h : Even C L p) (hadj : Adjacent p q) (hq : C q) : L p ≤ L q + 1 := by
  by_contra hlt
  exact h q ⟨hadj, hq, by omega⟩

/-- Fewer cells to flow into. -/
theorem Even.mono {C' : Pos → Prop} (h : Even C L p) (hC : ∀ q, C' q → C q) : Even C' L p :=
  fun q hs => h q ⟨hs.1, hC q hs.2.1, hs.2.2⟩

/-- Each lit cell is a source, or has a brighter cell of the volume beside it. -/
def Supported (A C S : Pos → Prop) (L : Levels) : Prop :=
  ∀ p, A p → 0 < L p → S p ∨ C p ∧ ∃ q, Adjacent p q ∧ A q ∧ L p < L q

/-- More cells may count as sources. -/
theorem Supported.mono {T : Pos → Prop} (h : Supported A C S L) (hS : ∀ q, S q → T q) :
    Supported A C T L :=
  fun q hA hpos => (h q hA hpos).imp_left (hS q)

/-! ## Walks -/

/-- A walk of `n` axis steps whose cells after the first one let light in. -/
inductive Walk (C : Pos → Prop) : Nat → Pos → Pos → Prop
  | nil (s : Pos) : Walk C 0 s s
  | snoc {n : Nat} {s p q : Pos} : Walk C n s p → Adjacent p q → C q → Walk C (n + 1) s q

/-- One walk after the other. -/
theorem Walk.append {n k : Nat} {s p q : Pos} (h : Walk C n s p) (h' : Walk C k p q) :
    Walk C (n + k) s q := by
  induction h' with
  | nil => exact h
  | snoc _ hadj hC ih => exact (ih h).snoc hadj hC

/-- Some walk brings at least the level `m` of the light of level `v` from the first cell to the
second. -/
def Arrives (C : Pos → Prop) (p : Pos) (v : Nat) (q : Pos) (m : Nat) : Prop :=
  ∃ n, Walk C n p q ∧ m + n ≤ v

namespace Arrives

theorem start : Arrives C p v p v := ⟨0, .nil p, le_rfl⟩

theorem mono {m' : Nat} (h : Arrives C p v q m) (hm : m' ≤ m) : Arrives C p v q m' := by
  rcases h with ⟨n, hwalk, hle⟩
  exact ⟨n, hwalk, by omega⟩

/-- One level is lost with each step. -/
theorem step (h : Arrives C p v a m) (hm : 0 < m) (hadj : Adjacent a b) (hb : C b) :
    Arrives C p v b (m - 1) := by
  rcases h with ⟨n, hwalk, hle⟩
  exact ⟨n + 1, hwalk.snoc hadj hb, by omega⟩

end Arrives

/-! ## Spreading -/

/-- Some cells got brighter, each next to a brighter one, and now shed light as far as it
goes. -/
structure Grown (A C : Pos → Prop) (L L' : Levels) : Prop where
  mono : ∀ q, L q ≤ L' q
  even : ∀ q, L q < L' q → Even C L' q
  fed : ∀ q, L q < L' q → C q ∧ ∃ n, Adjacent q n ∧ A n ∧ L' q < L' n

namespace Grown

theorem refl : Grown A C L L where
  mono _ := le_rfl
  even _ h := absurd h (lt_irrefl _)
  fed _ h := absurd h (lt_irrefl _)

/-- A cell out of which no light flows stays so. -/
theorem even_of_even (h : Grown A C L L') (he : Even C L q) : Even C L' q := by
  by_cases hlt : L q < L' q
  · exact h.even q hlt
  · intro n hn
    rcases hn with ⟨hadj, hn, hsteep⟩
    have hle := he.le hadj hn
    have hmono := h.mono n
    omega

/-- Growing twice is growing once. -/
theorem trans (h : Grown A C L L') (h' : Grown A C L' L'') : Grown A C L L'' where
  mono q := (h.mono q).trans (h'.mono q)
  even q hq := by
    by_cases hlt : L q < L' q
    · exact h'.even_of_even (h.even q hlt)
    · exact h'.even q (by omega)
  fed q hq := by
    by_cases hlt : L' q < L'' q
    · exact h'.fed q hlt
    · obtain ⟨hC, n, hadj, hA, hn⟩ := h.fed q (by
        have := h'.mono q
        omega)
      refine ⟨hC, n, hadj, hA, ?_⟩
      have := h'.mono n
      omega

/-- Cells that light cannot enter keep their level. -/
theorem eq_of_not (h : Grown A C L L') (hq : ¬ C q) : L' q = L q := by
  have := h.mono q
  by_contra hne
  exact hq (h.fed q (by omega)).1

/-- A pair that is steep afterwards was steep, and its first cell kept its level. -/
theorem steep (h : Grown A C L L') (hs : Steep C L' a b) : Steep C L a b ∧ L' a = L a := by
  have ha := h.mono a
  have hb := h.mono b
  have heq : L' a = L a := by
    by_contra hne
    exact h.even a (by omega) b hs
  rcases hs with ⟨hadj, hC, hlt⟩
  exact ⟨⟨hadj, hC, by omega⟩, heq⟩

/-- What is lit by itself afterwards was so before, at the same level. -/
theorem supported_kept (h : Grown A C L L') (hS : Supported A C S L) :
    Supported A C (fun q => S q ∧ L' q = L q) L' := by
  intro q hA hpos
  by_cases hlt : L q < L' q
  · exact .inr (h.fed q hlt)
  · have hq := h.mono q
    rcases hS q hA (by omega) with hs | ⟨hC, n, hadj, hAn, hn⟩
    · exact .inl ⟨hs, by omega⟩
    · have hmono := h.mono n
      exact .inr ⟨hC, n, hadj, hAn, by omega⟩

/-- Grown light has the sources that it had before. -/
theorem supported (h : Grown A C L L') (hS : Supported A C S L) : Supported A C S L' :=
  (h.supported_kept hS).mono fun _ hq => hq.1

/-- No cell gets brighter than the brightest cell was. -/
theorem le_bound (h : Grown A C L L') (hL : ∀ q, L q ≤ m) (hL' : ∀ q, L' q ≤ maxLight) (q : Pos) :
    L' q ≤ m := by
  by_contra hgt
  -- a cell above the bound got brighter, so a cell beside it lies higher still
  have hclimb : ∀ k, ∃ r, m + k < L' r := by
    intro k
    induction k with
    | zero => exact ⟨q, by omega⟩
    | succ k ih =>
      rcases ih with ⟨r, hr⟩
      have hr' := hL r
      rcases h.fed r (by omega) with ⟨_, n, _, _, hn⟩
      exact ⟨n, by omega⟩
  rcases hclimb maxLight with ⟨r, hr⟩
  have := hL' r
  omega

end Grown

/-- Levels that stay below a bound, and agree with it outside a region. -/
structure Under (Q : Pos → Prop) (B L : Levels) : Prop where
  le : ∀ q, L q ≤ B q
  eq : ∀ q, ¬ Q q → L q = B q

/-- The levels after spreading `v` from a cell. What got brighter got its light from the cell, or
from another one that got brighter. -/
structure SpreadFrom (A C : Pos → Prop) (L : Levels) (p : Pos) (v : Nat) (L' : Levels) :
    Prop where
  origin : L' p = v
  even : Even C L' p
  grown : Grown A C (Function.update L p v) L'
  led : ∀ q, Function.update L p v q < L' q →
    ∃ n, (n = p ∨ Function.update L p v n < L' n) ∧ Adjacent n q ∧ L' q < L' n

namespace SpreadFrom

/-- What holds of the origin, and of a cell that got brighter if it holds of the one that its
light came from, holds of all cells that got brighter. -/
theorem induct (h : SpreadFrom A C L p v L') (hL' : ∀ q, L' q ≤ maxLight) {P : Pos → Prop}
    (horigin : P p)
    (hstep : ∀ n q, P n → Function.update L p v q < L' q → Adjacent n q → L' q < L' n → P q)
    (q : Pos) (hq : Function.update L p v q < L' q) : P q := by
  -- induction on how far the cell lies below the full level
  have hclimb : ∀ k q, Function.update L p v q < L' q → maxLight - L' q ≤ k → P q := by
    intro k
    induction k with
    | zero =>
      intro q hq hk
      rcases h.led q hq with ⟨n, -, -, hlt⟩
      have := hL' n
      omega
    | succ k ih =>
      intro q hq hk
      rcases h.led q hq with ⟨n, hn, hadj, hlt⟩
      refine hstep n q ?_ hq hadj hlt
      rcases hn with rfl | hn
      · exact horigin
      · exact ih n hn (by omega)
  exact hclimb _ q hq le_rfl

/-- To each cell that got brighter there is a walk on which no more than one level was lost with
each step. -/
theorem traced (h : SpreadFrom A C L p v L') (hL' : ∀ q, L' q ≤ maxLight) (q : Pos)
    (hq : Function.update L p v q < L' q) : ∃ n, Walk C n p q ∧ L' q + n ≤ v := by
  refine h.induct hL' (P := fun q => ∃ n, Walk C n p q ∧ L' q + n ≤ v) ⟨0, .nil p, ?_⟩ ?_ q hq
  · rw [h.origin]
    exact le_rfl
  · rintro n q ⟨k, hwalk, hle⟩ hq hadj hlt
    exact ⟨k + 1, hwalk.snoc hadj (h.grown.fed q hq).1, by omega⟩

/-- The old level of the origin plays no part. -/
theorem congr {M : Levels} (h : SpreadFrom A C L p v L') (hM : ∀ q, q ≠ p → M q = L q) :
    SpreadFrom A C M p v L' := by
  have hupdate : Function.update M p v = Function.update L p v := by
    funext q
    by_cases hq : q = p
    · subst hq
      rw [Function.update_self, Function.update_self]
    · rw [Function.update_of_ne hq, Function.update_of_ne hq, hM q hq]
  refine ⟨h.origin, h.even, ?_, ?_⟩
  · rw [hupdate]
    exact h.grown
  · rw [hupdate]
    exact h.led

/-- Other cells that light does not enter keep their level. -/
theorem eq_of_not (h : SpreadFrom A C L p v L') (hq : ¬ C q) (hne : q ≠ p) : L' q = L q := by
  rw [h.grown.eq_of_not hq, Function.update_of_ne hne]

/-- Spreading a level that is no lower than the cell's makes nothing darker. -/
theorem mono (h : SpreadFrom A C L p v L') (hv : L p ≤ v) (q : Pos) : L q ≤ L' q := by
  by_cases hq : q = p
  · subst hq
    rw [h.origin]
    exact hv
  · have := h.grown.mono q
    rwa [Function.update_of_ne hq] at this

/-- Raising a cell makes no pair steep: what leaves the cell is spread, and a pair into it
was steep already. -/
theorem steep (h : SpreadFrom A C L p v L') (hv : L p ≤ v) (hs : Steep C L' a b) :
    Steep C L a b ∧ a ≠ p ∧ (b = p → v + 1 < L a) := by
  have ha : a ≠ p := by
    rintro rfl
    exact h.even b hs
  rcases h.grown.steep hs with ⟨⟨hadj, hC, hlt⟩, -⟩
  rw [Function.update_of_ne ha] at hlt
  by_cases hb : b = p
  · subst hb
    rw [Function.update_self] at hlt
    exact ⟨⟨hadj, hC, by omega⟩, ha, fun _ => hlt⟩
  · rw [Function.update_of_ne hb] at hlt
    exact ⟨⟨hadj, hC, hlt⟩, ha, fun hbp => absurd hbp hb⟩

/-- The cell that light was spread from must be supported itself. -/
theorem supported (h : SpreadFrom A C L p v L') (hv : L p ≤ v)
    (hS : ∀ q, q ≠ p → A q → 0 < L q → S q ∨ C q ∧ ∃ n, Adjacent q n ∧ A n ∧ L q < L n)
    (hp : S p ∨ C p ∧ ∃ n, Adjacent p n ∧ A n ∧ v < L n) : Supported A C S L' := by
  apply h.grown.supported
  intro q hA hpos
  -- the origin has a reason of its own, and a cell beside it may now be fed by a brighter one
  by_cases hq : q = p
  · subst hq
    rcases hp with hs | ⟨hC, n, hadj, hAn, hn⟩
    · exact .inl hs
    · refine .inr ⟨hC, n, hadj, hAn, ?_⟩
      rwa [Function.update_self, Function.update_of_ne hadj.ne.symm]
  · rw [Function.update_of_ne hq] at hpos ⊢
    rcases hS q hq hA hpos with hs | ⟨hC, n, hadj, hAn, hn⟩
    · exact .inl hs
    · refine .inr ⟨hC, n, hadj, hAn, ?_⟩
      by_cases hnp : n = p
      · subst hnp
        rw [Function.update_self]
        omega
      · rwa [Function.update_of_ne hnp]

/-- Spreading within a region, under a bound out of which no light would flow, changes nothing
outside. -/
theorem under (h : SpreadFrom A C L p v L') (hL' : ∀ q, L' q ≤ maxLight) {Q : Pos → Prop}
    {B : Levels} (hB : Under Q B L) (hp : Q p) (hv : v ≤ B p)
    (heven : ∀ a, Q a → a = p ∨ C a → Even C B a) : Under Q B L' := by
  -- whatever gained light was reached by the wave, which stays below the bound
  have hraised : ∀ q, Function.update L p v q < L' q → Q q ∧ (q = p ∨ C q) ∧ L' q ≤ B q := by
    refine h.induct hL' (P := fun q => Q q ∧ (q = p ∨ C q) ∧ L' q ≤ B q) ⟨hp, .inl rfl, ?_⟩ ?_
    · rw [h.origin]
      exact hv
    · rintro n q ⟨hQ, hn, hle⟩ hq hadj hlt
      have hC := (h.grown.fed q hq).1
      have hstep := (heven n hQ hn).le hadj hC
      refine ⟨?_, .inr hC, by omega⟩
      -- outside the region the level is that of the bound already
      by_contra hout
      have hqp : q ≠ p := by
        rintro rfl
        exact hout hp
      rw [Function.update_of_ne hqp, hB.eq q hout] at hq
      omega
  constructor
  · intro q
    by_cases hq : Function.update L p v q < L' q
    · exact (hraised q hq).2.2
    · by_cases hqp : q = p
      · rw [hqp, h.origin]
        exact hv
      · rw [Function.update_of_ne hqp] at hq
        have := hB.le q
        omega
  · intro q hout
    have hqp : q ≠ p := by
      rintro rfl
      exact hout hp
    have hq : ¬ Function.update L p v q < L' q := fun hq => hout (hraised q hq).1
    have hmono := h.grown.mono q
    rw [Function.update_of_ne hqp, hB.eq q hout] at hq hmono
    omega

theorem le_bound (h : SpreadFrom A C L p v L') (hL : ∀ q, L q ≤ m) (hv : v ≤ m)
    (hL' : ∀ q, L' q ≤ maxLight) (q : Pos) : L' q ≤ m := by
  refine h.grown.le_bound (fun q => ?_) hL' q
  by_cases hq : q = p
  · subst hq
    rwa [Function.update_self]
  · rw [Function.update_of_ne hq]
    exact hL q

end SpreadFrom

/-! ## Retracting -/

/-- Around the cell, which held `L q` or is the source, all is dark, or bright, or lets no
light in. -/
def Fenced (A C : Pos → Prop) (L : Levels) (p : Pos) (v : Nat) (D : Levels)
    (bright : Pos → Prop) (q : Pos) : Prop :=
  ∀ n, Adjacent q n → A n →
    D n = 0 ∨ (bright n ∧ (q = p → v ≤ D n) ∧ (q ≠ p → L q ≤ D n)) ∨ ¬ C n ∧ D n < v

/-- The levels `D` after darkening what a source of level `v` at `p` may have lit, and the
bright cells around the darkened ones. -/
structure Darkened (A C : Pos → Prop) (L : Levels) (p : Pos) (v : Nat) (D : Levels)
    (bright : Pos → Prop) : Prop where
  origin : D p = 0
  kept : ∀ q, q ≠ p → D q = L q ∨ D q = 0 ∧ C q ∧ L q < v
  traced : ∀ q, q ≠ p → D q ≠ L q → Arrives C p v q (L q)
  lit : ∀ q, bright q → A q ∧ 0 < D q
  border : ∀ q, q = p ∨ D q ≠ L q → Fenced A C L p v D bright q

/-- The levels after retracting: some cells went dark, and the bright ones around them were
spread again. -/
def Retracted (A C : Pos → Prop) (L : Levels) (p : Pos) (v : Nat) (L' : Levels) : Prop :=
  ∃ D bright, Darkened A C L p v D bright ∧ Grown A C D L' ∧ ∀ q, bright q → Even C L' q

namespace Retracted

/-- The old level of the source plays no part. -/
theorem congr {M : Levels} (h : Retracted A C L p v L') (hM : ∀ q, q ≠ p → M q = L q) :
    Retracted A C M p v L' := by
  rcases h with ⟨D, bright, hD, hgrown, heven⟩
  refine ⟨D, bright, ⟨hD.origin, ?_, ?_, hD.lit, ?_⟩, hgrown, heven⟩
  · intro q hq
    rw [hM q hq]
    exact hD.kept q hq
  · intro q hq
    rw [hM q hq]
    exact hD.traced q hq
  · intro q hq n hadj hn
    -- of the origin only its own new level is asked
    by_cases hqp : q = p
    · subst hqp
      rcases hD.border q (.inl rfl) n hadj hn with h0 | ⟨hb, hv, -⟩ | hopaque
      · exact .inl h0
      · exact .inr (.inl ⟨hb, hv, fun hne => absurd rfl hne⟩)
      · exact .inr (.inr hopaque)
    · rw [hM q hqp] at hq ⊢
      exact hD.border q hq n hadj hn

/-- Cells that light cannot enter keep their level; the source goes dark. -/
theorem eq_of_not (h : Retracted A C L p v L') (hq : ¬ C q) :
    L' q = if q = p then 0 else L q := by
  rcases h with ⟨D, bright, hD, hgrown, heven⟩
  rw [hgrown.eq_of_not hq]
  split
  · rename_i hqp
    subst hqp
    exact hD.origin
  · rename_i hqp
    rcases hD.kept q hqp with hkept | ⟨_, hC, _⟩
    · exact hkept
    · exact absurd hC hq

/-- Cells as bright as the source do not get darker. -/
theorem le_of_le (h : Retracted A C L p v L') (hqp : q ≠ p) (hq : v ≤ L q) : L q ≤ L' q := by
  rcases h with ⟨D, bright, hD, hgrown, heven⟩
  have hmono := hgrown.mono q
  rcases hD.kept q hqp with hkept | ⟨_, _, hlt⟩ <;> omega

/-- All goes dark if each lit cell is beside the source and less bright. -/
theorem eq_zero (h : Retracted A C L p v L') (hL' : ∀ q, L' q ≤ maxLight)
    (hweak : ∀ q, q ≠ p → 0 < L q → Adjacent p q ∧ A q ∧ C q ∧ L q < v) (q : Pos) : L' q = 0 := by
  rcases h with ⟨D, bright, hD, hgrown, heven⟩
  -- all other light lies beside the origin and is weaker, so the first wave takes it
  have hdark : ∀ q, D q ≤ 0 := by
    intro q
    by_cases hqp : q = p
    · rw [hqp, hD.origin]
    · rcases hD.kept q hqp with hkept | ⟨h0, -⟩
      · rcases Nat.eq_zero_or_pos (L q) with h0 | hpos
        · omega
        · rcases hweak q hqp hpos with ⟨hadj, hA, hC, hlt⟩
          rcases hD.border p (.inl rfl) q hadj hA with h0 | ⟨-, hv, -⟩ | ⟨hnC, -⟩
          · omega
          · have := hv rfl
            omega
          · exact absurd hC hnC
      · omega
  exact Nat.le_zero.1 (hgrown.le_bound hdark hL' q)

/-- Taking light back stays within a bound, whatever the origin held. -/
theorem le_bound (h : Retracted A C L p v L') (hL : ∀ q, q ≠ p → L q ≤ m)
    (hL' : ∀ q, L' q ≤ maxLight) (q : Pos) : L' q ≤ m := by
  rcases h with ⟨D, bright, hD, hgrown, heven⟩
  refine hgrown.le_bound (fun q => ?_) hL' q
  by_cases hqp : q = p
  · subst hqp
    rw [hD.origin]
    exact Nat.zero_le m
  · have hm := hL q hqp
    rcases hD.kept q hqp with hkept | ⟨h0, _, _⟩ <;> omega

/-- Retracting makes no pair steep, and none is steep at the source. A cell that lets no
light in may shine itself, but only as brightly as the source. -/
theorem steep (h : Retracted A C L p v L') (hA : A a) (hout : C a ∨ v ≤ L a)
    (hs : Steep C L' a b) : Steep C L a b ∧ a ≠ p ∧ b ≠ p := by
  rcases h with ⟨D, bright, hD, hgrown, heven⟩
  rcases hgrown.steep hs with ⟨⟨hadj, hC, hlt⟩, heq⟩
  have ha : a ≠ p := by
    rintro rfl
    rw [hD.origin] at hlt
    omega
  have hDa : D a = L a := by
    rcases hD.kept a ha with hkept | ⟨h0, _, _⟩
    · exact hkept
    · omega
  -- next to a darkened cell `a` would be bright, and bright cells are spread again
  have hb : ¬ (b = p ∨ D b ≠ L b) := by
    intro hdark
    rcases hD.border b hdark a hadj.symm hA with h0 | ⟨hbright, _⟩ | ⟨hnC, hlow⟩
    · omega
    · exact heven a hbright b hs
    · rcases hout with hCa | hva
      · exact hnC hCa
      · omega
  have hbp : b ≠ p := fun hbp => hb (.inl hbp)
  have hDb : D b = L b := by
    by_contra hne
    exact hb (.inr hne)
  exact ⟨⟨hadj, hC, by omega⟩, ha, hbp⟩

/-- Cells to which less arrives from the source than they hold do not get darker. -/
theorem le_of_not_arrives (h : Retracted A C L p v L') (hqp : q ≠ p)
    (hq : ¬ Arrives C p v q (L q)) : L q ≤ L' q := by
  rcases h with ⟨D, bright, hD, hgrown, heven⟩
  have hkept : D q = L q := by
    by_contra hne
    exact hq (hD.traced q hqp hne)
  rw [← hkept]
  exact hgrown.mono q

/-- Retracting a source leaves only what the others support, at the levels that they had. -/
theorem supported_kept (h : Retracted A C L p v L') (hp : L p ≤ v)
    (hS : ∀ q, q ≠ p → A q → 0 < L q → S q ∨ C q ∧ ∃ n, Adjacent q n ∧ A n ∧ L q < L n) :
    Supported A C (fun q => (S q ∧ q ≠ p) ∧ L' q = L q) L' := by
  rcases h with ⟨D, bright, hD, hgrown, heven⟩
  -- the kept sources support what the waves left; spreading adds only what is fed
  have hdark : Supported A C (fun q => (S q ∧ q ≠ p) ∧ D q = L q) D := by
    intro q hA hpos
    have hqp : q ≠ p := by
      rintro rfl
      rw [hD.origin] at hpos
      omega
    have hDq : D q = L q := by
      rcases hD.kept q hqp with hkept | ⟨h0, _, _⟩
      · exact hkept
      · omega
    rw [hDq] at hpos ⊢
    rcases hS q hqp hA hpos with hs | ⟨hC, n, hadj, hAn, hn⟩
    · exact .inl ⟨⟨hs, hqp⟩, hDq⟩
    · refine .inr ⟨hC, n, hadj, hAn, ?_⟩
      -- had the brighter cell gone dark, so had this one
      have hkept : ¬ (n = p ∨ D n ≠ L n) := by
        intro hdark
        rcases hD.border n hdark q hadj.symm hA with h0 | ⟨_, horigin, hother⟩ | ⟨hnC, _⟩
        · omega
        · by_cases hnp : n = p
          · have := horigin hnp
            subst hnp
            omega
          · have := hother hnp
            omega
        · exact hnC hC
      have hDn : D n = L n := by
        by_contra hne
        exact hkept (.inr hne)
      omega
  refine (hgrown.supported_kept hdark).mono ?_
  rintro q ⟨⟨hs, hDq⟩, hL'⟩
  exact ⟨hs, hL'.trans hDq⟩

/-- After taking back, all light has other sources than the origin. -/
theorem supported (h : Retracted A C L p v L') (hp : L p ≤ v)
    (hS : ∀ q, q ≠ p → A q → 0 < L q → S q ∨ C q ∧ ∃ n, Adjacent q n ∧ A n ∧ L q < L n) :
    Supported A C (fun q => S q ∧ q ≠ p) L' :=
  (h.supported_kept hp hS).mono fun _ hq => hq.1

end Retracted

/-! ## Light from scratch -/

/-- The level that light has at a cell if each cell `s` gives off `given s` by itself and
light loses one level with each step: the largest `given s - n` over the walks of `n` steps
from `s` to the cell. -/
noncomputable def brightest (C : Pos → Prop) (given : Levels) (p : Pos) : Nat :=
  sSup {v | ∃ s n, Walk C n s p ∧ v = given s - n}

variable {given : Levels}

/-- The light that arrives at a cell is bounded if what is given off is. -/
theorem brightest_bddAbove (hg : ∀ s, given s ≤ m) :
    BddAbove {v | ∃ s n, Walk C n s p ∧ v = given s - n} := by
  refine ⟨m, ?_⟩
  rintro v ⟨s, n, _, rfl⟩
  have := hg s
  omega

/-- What arrives by some walk is at most the brightest. -/
theorem le_brightest (hg : ∀ s, given s ≤ m) {n : Nat} {s : Pos} (h : Walk C n s p) :
    given s - n ≤ brightest C given p :=
  le_csSup (brightest_bddAbove hg) ⟨s, n, h, rfl⟩

/-- Some walk brings the brightest light. -/
theorem exists_brightest (hg : ∀ s, given s ≤ m) :
    ∃ s n, Walk C n s p ∧ brightest C given p = given s - n := by
  have hne : {v | ∃ s n, Walk C n s p ∧ v = given s - n}.Nonempty :=
    ⟨given p - 0, p, 0, .nil p, rfl⟩
  exact Nat.sSup_mem hne (brightest_bddAbove hg)

/-- Supported levels are not brighter than the light from scratch: from a lit cell one climbs to
brighter cells until a source is reached. -/
theorem le_brightest_of_supported (hg : ∀ s, given s ≤ maxLight) (hL : ∀ q, L q ≤ maxLight)
    (hsource : ∀ s, S s → L s ≤ given s) (hS : Supported A C S L) (hp : A p) :
    L p ≤ brightest C given p := by
  -- induction on how far the cell lies below the full level
  have hclimb : ∀ k q, A q → maxLight - L q ≤ k → L q ≤ brightest C given q := by
    intro k
    induction k with
    | zero =>
      intro q hA hk
      rcases Nat.eq_zero_or_pos (L q) with h0 | hpos
      · omega
      · rcases hS q hA hpos with hs | ⟨_, n, _, _, hn⟩
        · exact (hsource q hs).trans (le_brightest hg (.nil q))
        · have := hL n
          omega
    | succ k ih =>
      intro q hA hk
      rcases Nat.eq_zero_or_pos (L q) with h0 | hpos
      · omega
      · rcases hS q hA hpos with hs | ⟨hC, n, hadj, hAn, hn⟩
        · exact (hsource q hs).trans (le_brightest hg (.nil q))
        · have hle : L n ≤ brightest C given n := by
            apply ih n hAn
            have := hL n
            omega
          -- the walk to the brighter cell goes on to this one, a level lower
          rcases exists_brightest (C := C) (p := n) hg with ⟨s, steps, hwalk, hs⟩
          have hnext := le_brightest hg (hwalk.snoc hadj.symm hC)
          omega
  exact hclimb (maxLight - L p) p hp le_rfl

/-- Where no pair is steep the level falls by at most one with each step of a walk. -/
theorem Walk.le_of_even {n : Nat} {s : Pos} (h : Walk C n s p) (hg : ∀ s, given s ≤ L s)
    (heven : ∀ q, 0 < given q ∨ C q → Even C L q) : given s - n ≤ L p := by
  induction h with
  | nil s => exact hg s
  | @snoc n s r q hwalk hadj hC ih =>
    rcases Nat.eq_zero_or_pos (given s) with h0 | hpos
    · omega
    · have hr : 0 < given r ∨ C r := by
        cases hwalk with
        | nil => exact .inl hpos
        | snoc _ _ hCr => exact .inr hCr
      have hle := (heven r hr).le hadj hC
      omega

/-- Supported levels without a steep pair are the light from scratch. -/
theorem eq_brightest (hg : ∀ s, given s ≤ L s) (hL : ∀ q, L q ≤ maxLight)
    (hsource : ∀ s, S s → L s ≤ given s) (hS : Supported A C S L)
    (heven : ∀ q, 0 < given q ∨ C q → Even C L q) (hp : A p) :
    L p = brightest C given p := by
  have hg' : ∀ s, given s ≤ maxLight := fun s => (hg s).trans (hL s)
  apply Nat.le_antisymm
  · exact le_brightest_of_supported hg' hL hsource hS hp
  · rcases exists_brightest (C := C) (p := p) hg' with ⟨s, n, hwalk, hs⟩
    rw [hs]
    exact hwalk.le_of_even hg heven

end VoxelWorld.Light
