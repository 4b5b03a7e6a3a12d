import VoxelWorld.Proofs.World.Calls

/-!
# Proofs.World.Sources — blocks that give off light, and the light they hold

Taking back the light of a cell darkens all that is less bright around it, and what is darkened
comes back only from brighter cells. A block that gives off light is no exception.

* `Steady` are the blocks that keep their light all the same: those that stop light, and those
  than which no placed block is brighter.
* `SourcesLit` says that they hold their light; relighting and edits keep it.
* `steady_source_lit` is the result for runs. `source_goes_dark` shows that a weak torch loses
  its light when a lamp beside it is taken away.
-/

namespace VoxelWorld

open Light (Levels Grown OldRetracted NewSpread Retracted)

/-! ## Steady sources -/

/-- The light of the block is never taken back for that of another one. -/
def Steady (reg : Registry) (placed : BlockId → Prop) (b : BlockId) : Prop :=
  reg.isTranslucent b = false ∨ ∀ id, placed id → reg.luminance id ≤ reg.luminance b

/-- Nothing is brighter than the blocks that were placed, and steady blocks hold the light that
they give off. -/
structure SourcesLit (reg : Registry) (f : LightField) (A : Pos → Prop) (placed : BlockId → Prop)
    (L : Levels) : Prop where
  le : ∀ m, (∀ id, placed id → reg.luminance id ≤ m) → ∀ q, L q ≤ m
  lit : ∀ q, A q → Steady reg placed (f.block q) → reg.luminance (f.block q) ≤ L q

namespace SourcesLit

variable {reg : Registry} {f : LightField} {A : Pos → Prop} {placed : BlockId → Prop}
  {L M L' : Levels} {p : Pos} {id : BlockId} {reason : Prop}

theorem grown {C : Pos → Prop} (h : SourcesLit reg f A placed L) (hgrown : Grown A C L L')
    (hle : ∀ q, L' q ≤ maxLight) : SourcesLit reg f A placed L' := by
  constructor
  · intro m hm
    exact hgrown.le_bound (h.le m hm) hle
  · intro q hq hsteady
    exact (h.lit q hq hsteady).trans (hgrown.mono q)

/-- Steady blocks keep their light through an edit, and the new block gets its own. -/
theorem edit (h : SourcesLit reg f A placed L) (hid : placed id)
    (hlum : reg.luminance id ≤ maxLight) (hM : ∀ q, M q ≤ maxLight) (hle : ∀ q, L' q ≤ maxLight)
    (hold : OldRetracted A ((f.withBlock p id).Conducts reg) L p reason M)
    (hnew : NewSpread A ((f.withBlock p id).Conducts reg) M p (reg.luminance id) L') :
    SourcesLit reg (f.withBlock p id) A placed L' := by
  constructor
  · intro m hm
    apply hnew.le_bound (hold.le_bound (h.le m hm) hM) ?_ hle
    intro _
    exact (Nat.min_le_left _ _).trans (hm id hid)
  · intro q hq hsteady
    by_cases hqp : q = p
    · subst hqp
      have hblock : (f.withBlock q id).block q = id := LightField.block_withBlock_self
      rw [hblock]
      rcases Nat.eq_zero_or_pos (reg.luminance id) with h0 | hpos
      · omega
      · rw [hnew.eq_self hpos]
        exact le_min le_rfl hlum
    · have hblock : (f.withBlock p id).block q = f.block q := LightField.block_withBlock_of_ne hqp
      rw [hblock] at hsteady ⊢
      have hlit := h.lit q hq hsteady
      rcases hsteady with hopaque | hbright
      · -- the flood does not enter the cell
        have hC : ¬ (f.withBlock p id).Conducts reg q := by
          intro hC
          have htr := hC.2
          rw [hblock, hopaque] at htr
          cases htr
        rw [hnew.eq_of_not hC hqp, hold.eq_of_not hC hqp]
        exact hlit
      · -- the edited cell was no brighter, so the flood stops before the cell
        have hle := h.le _ hbright p
        calc reg.luminance (f.block q)
          _ ≤ L q := hlit
          _ ≤ M q := hold.le_of_le hqp (hle.trans hlit)
          _ ≤ L' q := hnew.mono_of_ne hqp

end SourcesLit

namespace World

variable {w w' w₀ w₁ : World} {c : ChunkCoord} {p : Pos} {b id : BlockId} {R : List ChunkCoord}
  {calls : List Call} {placed : BlockId → Prop}

/-- The steady blocks of the generated chunks hold their light. -/
def SourcesLit (w : World) (placed : BlockId → Prop) : Prop :=
  VoxelWorld.SourcesLit w.registry w.field (InChunks w.dims w.Generated) placed
    (w.field.level .block)

theorem Untouched.sourcesLit (h : w.Untouched)
    (hdark : ∀ q, InChunks w.dims w.Generated q → w.registry.luminance (w.field.block q) = 0) :
    w.SourcesLit placed := by
  constructor
  · intro m _ q
    by_cases hq : InChunks w.dims w.Generated q
    · rw [h.blockLight q hq]
      exact Nat.zero_le m
    · rw [h.sound.dark hq]
      split <;> exact Nat.zero_le m
  · intro q hq _
    rw [hdark q hq]
    exact Nat.zero_le _

/-- Relighting dims no source. -/
theorem Lit.sourcesLit (hl : Lit w w' c) (h : w.SourcesLit placed) : w'.SourcesLit placed := by
  have hgrown := h.grown (hl.relit.grown .block) (hl.sound.level_le .block)
  unfold SourcesLit
  rw [hl.registry, hl.dims, hl.generated]
  refine ⟨hgrown.le, ?_⟩
  rw [hl.relit.block]
  exact hgrown.lit

/-- An edit dims no steady one. -/
theorem Edited.sourcesLit (he : Edited w w' p id) (h : w.SourcesLit placed) (hid : placed id)
    (hlum : w.registry.luminance id ≤ maxLight) : w'.SourcesLit placed := by
  rcases he.blockLight with ⟨M, hM, hold, hnew⟩
  have hdone := h.edit hid hlum hM (he.tracked.sound.level_le .block) hold hnew
  unfold SourcesLit
  rw [he.tracked.registry, he.tracked.dims, he.tracked.generated_eq]
  refine ⟨hdone.le, ?_⟩
  rw [he.block]
  exact hdone.lit

/-! ## Runs -/

/-- After every run, a block that stops light, or than which no placed block is brighter, has at
least the light that it gives off. -/
theorem steady_source_lit (h : w₀.Pristine) (hgen : w₀.generateAll R = .ok w₁)
    (hroom : ∀ c ∈ R, Roomy w₀.dims c) (hlum : ∀ id, w₀.registry.luminance id ≤ maxLight)
    (hdark : ∀ p, InChunks w₀.dims (· ∈ R) p → w₀.registry.luminance (w₁.field.block p) = 0)
    (hin : ∀ call ∈ calls, call.Within w₀.dims (· ∈ R)) :
    ∃ w, w₁.performAll calls = .ok w ∧
      ∀ p b, InChunks w.dims (· ∈ R) p → w.blockAt p = .ok b →
        Steady w₀.registry (fun id => ∃ q, Call.edit q id ∈ calls) b →
        ∃ v, w.lightAt p .block = .ok v ∧ w₀.registry.luminance b ≤ v := by
  rcases laid_of_generateAll h hgen with ⟨⟨huntouched, hdims, hreg, -, -⟩, hgenerated⟩
  rw [← hreg] at hlum hdark ⊢
  rw [← hdims] at hroom hin hdark
  rw [← hgenerated] at hin hdark ⊢
  have hroom' : ∀ c, w₁.Generated c → Roomy w₁.dims c := by
    intro c hc
    rw [hgenerated] at hc
    exact hroom c hc
  have hrun : ∃ w, w₁.performAll calls = .ok w ∧ SameGround w₁ w ∧
      w.SourcesLit fun id => ∃ q, Call.edit q id ∈ calls := by
    -- no call of the run dims a steady source, so the last state has them all lit
    refine performAll_ensures huntouched.sound hroom' hin
      (I := fun _ w => w.SourcesLit fun id => ∃ q, Call.edit q id ∈ calls) ?_ ?_ ?_ ?_
    · exact huntouched.sourcesLit hdark
    · intro call rest w _ _ hs
      exact hs
    · intro c rest w w' _ hl hs
      exact hl.sourcesLit hs
    · intro pre p id rest w w' hcalls _ _ hground _ he hs
      refine he.sourcesLit hs ⟨p, ?_⟩ ?_
      · rw [hcalls]
        exact List.mem_append_right _ List.mem_cons_self
      · rw [hground.registry]
        exact hlum id
  rcases hrun with ⟨w, hok, hground, hs⟩
  refine ⟨w, hok, fun p b hp hb hsteady => ?_⟩
  have hvalid := hground.sound.valid
  rw [blockAt_of_inChunks hvalid hp] at hb
  cases hb
  rw [← hground.generated] at hp
  rw [← hground.registry] at hsteady ⊢
  exact ⟨_, lightAt_of_inChunks hvalid hp, hs.lit p hp hsteady⟩

/-- Two chunks of torches and air with three torches, one of which is taken away. -/
theorem steady_source_lit_smallest :
    ∃ w₁, smallest.generateAll [⟨0, 0⟩, ⟨1, 0⟩] = .ok w₁ ∧
      ∃ w, w₁.performAll [.edit ⟨0, 0, 0⟩ 1, .edit ⟨1, 1, 0⟩ 1, .edit ⟨0, 1, 0⟩ 1,
          .edit ⟨1, 1, 0⟩ air] = .ok w ∧
        ∀ p, InChunks w.dims (· ∈ [⟨0, 0⟩, ⟨1, 0⟩]) p → w.blockAt p = .ok 1 →
          ∃ v, w.lightAt p .block = .ok v ∧ smallest.registry.luminance 1 ≤ v := by
  have hroom : ∀ c ∈ [(⟨0, 0⟩ : ChunkCoord), ⟨1, 0⟩], Roomy smallest.dims c := by
    intro c hc
    rcases List.mem_pair.1 hc with rfl | rfl
    · exact smallest.roomy (by decide) (by decide)
    · exact smallest.roomy (by decide) (by decide)
  rcases smallest.exists_generateAll hroom with ⟨w₁, hgen, hair⟩
  -- no block outshines the torch
  have hlum : ∀ id, smallest.registry.luminance id ≤ smallest.registry.luminance 1 := by
    intro id
    rw [smallest.luminance, smallest.luminance]
    split <;> decide
  have hmax : smallest.registry.luminance 1 ≤ maxLight := by
    rw [smallest.luminance]
    decide
  -- the passes place nothing that shines
  have hdark : ∀ p, InChunks smallest.dims (· ∈ [⟨0, 0⟩, ⟨1, 0⟩]) p →
      smallest.registry.luminance (w₁.field.block p) = 0 := by
    intro p hp
    rw [hair p hp, smallest.luminance]
    rfl
  have hin : ∀ call ∈ [Call.edit ⟨0, 0, 0⟩ 1, .edit ⟨1, 1, 0⟩ 1, .edit ⟨0, 1, 0⟩ 1,
      .edit ⟨1, 1, 0⟩ air], call.Within smallest.dims (· ∈ [⟨0, 0⟩, ⟨1, 0⟩]) := by
    intro call hcall
    simp only [List.mem_cons, List.not_mem_nil, or_false] at hcall
    rcases hcall with rfl | rfl | rfl | rfl <;> exact ⟨_, rfl, by decide⟩
  rcases steady_source_lit smallest.pristine hgen hroom (fun id => (hlum id).trans hmax) hdark
    hin with ⟨w, hok, hlit⟩
  exact ⟨w₁, hgen, w, hok, fun p hp hb => hlit p 1 hp hb (.inr fun id _ => hlum id)⟩

/-! ## A source that is not steady -/

namespace Edited

variable {q : Pos}

/-- Where no light is taken back no other cell gets darker. -/
theorem level_mono (he : Edited w w' p id) (hdark : w.registry.luminance (w.field.block p) = 0)
    (htr : w.registry.isTranslucent id = true) (hq : q ≠ p) :
    w.field.level .block q ≤ w'.field.level .block q := by
  rcases he.blockLight with ⟨M, -, hold, hnew⟩
  rcases hold with ⟨-, hpos | hopaque, -⟩ | ⟨-, rfl⟩
  · omega
  · rw [htr] at hopaque
    cases hopaque
  · exact hnew.mono_of_ne hq

/-- Taking away the light of a cell leaves nothing of the weaker light around it, whether or not
there are blocks that give it off. -/
theorem level_eq_zero (he : Edited w w' p id) (h : w.Sound)
    (hold : 0 < w.registry.luminance (w.field.block p)) (hlit : 0 < w.field.level .block p)
    (hid : w.registry.luminance id = 0)
    (hweak : ∀ q, q ≠ p → 0 < w.field.level .block q → Light.Adjacent p q ∧
      InChunks w.dims w.Generated q ∧ w.registry.isTranslucent (w.field.block q) = true ∧
      w.field.level .block q < w.field.level .block p) :
    w'.field.level .block q = 0 := by
  rcases he.blockLight with ⟨M, hM, hret, hnew⟩
  -- taking the old light back leaves nothing, for every other lit cell is weaker and beside it
  have hdark : ∀ q, M q ≤ 0 := by
    intro q
    rcases hret with ⟨-, -, hret⟩ | ⟨h0 | hno, -⟩
    · refine (hret.eq_zero hM (fun r hr hpos => ?_) q).le
      rcases hweak r hr hpos with ⟨hadj, hA, htr, hlt⟩
      exact ⟨hadj, hA,
        (LightField.conducts_withBlock_of_ne hr).2 ⟨(h.accepts_iff r).2 hA, htr⟩, hlt⟩
    · omega
    · exact absurd (.inl hold) hno
  apply Nat.le_zero.1
  apply hnew.le_bound hdark ?_ (he.tracked.sound.level_le .block)
  omega

end Edited

/-- A world of weak torches and lamps, all of which let light through, with chunks of two
cells. -/
def lanterns : World where
  config := smallest.config
  registry := (Registry.empty.put ⟨1, "torch", true, false, .billboard, 5⟩).put
    ⟨2, "lamp", true, false, .cube, 14⟩
  generators := .empty
  files := none

namespace lanterns

theorem pristine : lanterns.Pristine := ⟨rfl, rfl, rfl⟩

theorem dims_eq : lanterns.dims = smallest.dims := by
  unfold lanterns World.dims
  rfl

/-- All its blocks: the lamp, the torch, air, and those that are not known. -/
theorem get (id : BlockId) : lanterns.registry.get id =
    if id = 2 then ⟨2, "lamp", true, false, .cube, 14⟩
    else if id = 1 then ⟨1, "torch", true, false, .billboard, 5⟩
    else if id = air then .ofAir else .unknown id := by
  unfold lanterns
  rw [Registry.get_put, Registry.get_put, Registry.get_empty]

/-- Only these two give off light. -/
theorem luminance (id : BlockId) :
    lanterns.registry.luminance id = if id = 2 then 14 else if id = 1 then 5 else 0 := by
  have hread : ∀ r : Registry, r.luminance id = (r.get id).luminance := fun _ => rfl
  rw [hread, get]
  split
  · rfl
  · split
    · rfl
    · split <;> rfl

theorem isTranslucent_torch : lanterns.registry.isTranslucent 1 = true := by
  have hread : ∀ r : Registry, r.isTranslucent 1 = (r.get 1).translucent := fun _ => rfl
  rw [hread, get]
  rfl

theorem isTranslucent_air : lanterns.registry.isTranslucent air = true := by
  have hread : ∀ r : Registry, r.isTranslucent air = (r.get air).translucent := fun _ => rfl
  rw [hread, get]
  rfl

/-- A chunk of it can be generated, and is of air. -/
theorem exists_generateAll : ∃ w, lanterns.generateAll [⟨0, 0⟩] = .ok w ∧
    ∀ p, InChunks lanterns.dims (· ∈ [⟨0, 0⟩]) p → w.field.block p = air := by
  apply exists_generateAll_of_air pristine rfl
  · rw [dims_eq]
    exact smallest.storable
  · intro c hc
    rw [dims_eq, List.mem_singleton.1 hc]
    exact smallest.roomy (by decide) (by decide)

/-- The chunk at the origin has two cells. -/
theorem inChunks_iff {q : Pos} : InChunks lanterns.dims (· ∈ [⟨0, 0⟩]) q ↔
    q = ⟨0, 0, 0⟩ ∨ q = ⟨0, 1, 0⟩ := by
  constructor
  · intro hq
    rcases (VoxelWorld.inChunks_iff pristine.sound.valid).1 hq with ⟨hhome, hy, -⟩
    rw [dims_eq] at hhome hy
    rcases q with ⟨x, y, z⟩
    have hhome : (⟨x / 1, z / 1⟩ : ChunkCoord) = ⟨0, 0⟩ := List.mem_singleton.1 hhome
    have hy : 0 ≤ y ∧ y < 2 := hy
    rw [Int.ediv_one, Int.ediv_one] at hhome
    cases hhome
    rcases (by omega : y = 0 ∨ y = 1) with rfl | rfl
    · exact .inl rfl
    · exact .inr rfl
  · rw [dims_eq]
    rintro (rfl | rfl)
    · exact ⟨_, rfl, by decide⟩
    · exact ⟨_, rfl, by decide⟩

end lanterns

/-- Placing another block in a generated chunk. -/
theorem exists_setBlock (h : SameGround w₁ w) (hroom : ∀ c, w₁.Generated c → Roomy w₁.dims c)
    (hp : InChunks w₁.dims w₁.Generated p) (hne : w.field.block p ≠ id) :
    ∃ w', w.setBlock p id = .ok (true, w') ∧ Edited w w' p id ∧ SameGround w₁ w' := by
  rw [← h.dims, ← h.generated] at hp
  have hrun : Ensures False (w.setBlock p id) _ := edit_ensures h.sound (h.roomy hroom) hp
  rcases hrun.and_eq_ok.exists_ok False.elim with ⟨⟨did, w'⟩, -, hr, hok⟩
  rcases hr with ⟨hsame, -⟩ | ⟨hdid, he⟩
  · exact absurd hsame hne
  · simp only at hdid he
    rw [hdid] at hok
    exact ⟨w', hok, he, h.edited he⟩

/-- An edit that changes the block goes through. -/
theorem exists_edit (id : BlockId) (h : SameGround w₁ w)
    (hroom : ∀ c, w₁.Generated c → Roomy w₁.dims c) (hp : InChunks w₁.dims w₁.Generated p)
    (hne : w.field.block p ≠ id) :
    ∃ w', w.perform (.edit p id) = .ok w' ∧ Edited w w' p id ∧ SameGround w₁ w' := by
  rcases exists_setBlock h hroom hp hne with ⟨w', hok, he, hground⟩
  exact ⟨w', perform_edit hok, he, hground⟩

namespace lanterns

/-- The chunk at the origin is there: two cells of air, one above the other. -/
structure Start (w₁ : World) : Prop where
  run : lanterns.generateAll [⟨0, 0⟩] = .ok w₁
  ground : SameGround w₁ w₁
  dims : w₁.dims = lanterns.dims
  registry : w₁.registry = lanterns.registry
  roomy : ∀ c, w₁.Generated c → Roomy w₁.dims c
  region : InChunks w₁.dims w₁.Generated = InChunks lanterns.dims (· ∈ [⟨0, 0⟩])
  cells : ∀ q, InChunks w₁.dims w₁.Generated q ↔ q = ⟨0, 0, 0⟩ ∨ q = ⟨0, 1, 0⟩
  air : ∀ q, InChunks w₁.dims w₁.Generated q → w₁.field.block q = air

/-- There is such a world. -/
theorem exists_start : ∃ w₁, Start w₁ := by
  rcases exists_generateAll with ⟨w₁, hgen, hair⟩
  rcases laid_of_generateAll pristine hgen with ⟨⟨huntouched, hdims, hreg, -, -⟩, hR⟩
  have hregion : InChunks w₁.dims w₁.Generated = InChunks lanterns.dims (· ∈ [⟨0, 0⟩]) := by
    rw [hdims, hR]
  refine ⟨w₁, hgen, SameGround.refl huntouched.sound, hdims, hreg, fun c hc => ?_, hregion, ?_, ?_⟩
  · rw [hR] at hc
    rw [hdims, dims_eq, List.mem_singleton.1 hc]
    exact smallest.roomy (by decide) (by decide)
  · intro q
    rw [hregion]
    exact inChunks_iff
  · rw [hregion]
    exact hair

namespace Start

theorem luminance (h : Start w₁) (hground : SameGround w₁ w) (id : BlockId) :
    w.registry.luminance id = if id = 2 then 14 else if id = 1 then 5 else 0 := by
  rw [hground.registry, h.registry]
  exact lanterns.luminance id

theorem isTranslucent_torch (h : Start w₁) (hground : SameGround w₁ w) :
    w.registry.isTranslucent 1 = true := by
  rw [hground.registry, h.registry]
  exact lanterns.isTranslucent_torch

theorem isTranslucent_air (h : Start w₁) (hground : SameGround w₁ w) :
    w.registry.isTranslucent VoxelWorld.air = true := by
  rw [hground.registry, h.registry]
  exact lanterns.isTranslucent_air

/-- A lamp in the upper cell has its light. -/
theorem exists_lamp (h : Start w₁) : ∃ w, w₁.perform (.edit ⟨0, 1, 0⟩ 2) = .ok w ∧
    Edited w₁ w ⟨0, 1, 0⟩ 2 ∧ SameGround w₁ w ∧ w.field.level .block ⟨0, 1, 0⟩ = 14 := by
  have hlamp := (h.cells ⟨0, 1, 0⟩).2 (.inr rfl)
  rcases exists_edit 2 h.ground h.roomy hlamp (by rw [h.air _ hlamp]; decide) with
    ⟨w, hok, he, hground⟩
  refine ⟨w, hok, he, hground, ?_⟩
  rw [he.level_self] <;> rw [h.luminance h.ground] <;> decide

end Start

end lanterns

/-- A lamp is placed, a torch below it, and the lamp is taken away: the torch is still there,
and dark. -/
theorem source_goes_dark :
    ∃ w₁, lanterns.generateAll [⟨0, 0⟩] = .ok w₁ ∧
      (∀ p, InChunks lanterns.dims (· ∈ [⟨0, 0⟩]) p → w₁.field.block p = air) ∧
      ∃ w, w₁.performAll [.edit ⟨0, 1, 0⟩ 2, .edit ⟨0, 0, 0⟩ 1, .edit ⟨0, 1, 0⟩ air] = .ok w ∧
        w.blockAt ⟨0, 0, 0⟩ = .ok 1 ∧ w.registry.luminance 1 = 5 ∧
        w.lightAt ⟨0, 0, 0⟩ .block = .ok 0 := by
  rcases lanterns.exists_start with ⟨w₁, h⟩
  have htorch := (h.cells ⟨0, 0, 0⟩).2 (.inl rfl)
  have hlamp := (h.cells ⟨0, 1, 0⟩).2 (.inr rfl)
  -- the lamp has its light
  rcases h.exists_lamp with ⟨w₂, hok₂, he₂, hground₂, hlamp₂⟩
  have htorch₂ : w₂.field.block ⟨0, 0, 0⟩ = air := by
    rw [he₂.block_of_ne (by decide), h.air _ htorch]
  -- the torch has less, and leaves that of the lamp alone
  rcases exists_edit 1 hground₂ h.roomy htorch (by rw [htorch₂]; decide) with
    ⟨w₃, hok₃, he₃, hground₃⟩
  have htorch₃ : w₃.field.level .block ⟨0, 0, 0⟩ = 5 := by
    rw [he₃.level_self] <;> rw [h.luminance hground₂] <;> decide
  have hlamp₃ : 14 ≤ w₃.field.level .block ⟨0, 1, 0⟩ := by
    rw [← hlamp₂]
    apply he₃.level_mono _ (h.isTranslucent_torch hground₂) (by decide)
    rw [htorch₂, h.luminance hground₂]
    rfl
  have hblock₃ : w₃.field.block ⟨0, 1, 0⟩ = 2 := by
    rw [he₃.block_of_ne (by decide), he₂.block_self]
  -- without the lamp all is dark
  rcases exists_edit air hground₃ h.roomy hlamp (by rw [hblock₃]; decide) with
    ⟨w₄, hok₄, he₄, hground₄⟩
  have htorch₄ : w₄.field.level .block ⟨0, 0, 0⟩ = 0 := by
    refine he₄.level_eq_zero hground₃.sound ?_ (by omega) ?_ fun q hq hpos => ?_
    · rw [hblock₃, h.luminance hground₃]
      decide
    · rw [h.luminance hground₃]
      rfl
    · have hin : InChunks w₃.dims w₃.Generated q := by
        by_contra hno
        rw [hground₃.sound.dark hno] at hpos
        split at hpos <;> exact absurd hpos (lt_irrefl 0)
      rw [hground₃.dims, hground₃.generated] at hin
      rcases (h.cells q).1 hin with rfl | rfl
      · rw [htorch₃, he₃.block_self, hground₃.dims, hground₃.generated]
        exact ⟨⟨(0, -1, 0), by decide, rfl⟩, htorch, h.isTranslucent_torch hground₃, by omega⟩
      · exact absurd rfl hq
  have hstart : w₁.performAll [] = .ok w₁ := rfl
  have hrun := performAll_snoc (performAll_snoc (performAll_snoc hstart hok₂) hok₃) hok₄
  have htorch' : InChunks w₄.dims w₄.Generated ⟨0, 0, 0⟩ := by
    rwa [hground₄.dims, hground₄.generated]
  refine ⟨w₁, h.run, h.region ▸ h.air, w₄, hrun, ?_, ?_, ?_⟩
  · rw [blockAt_of_inChunks hground₄.sound.valid htorch', he₄.block_of_ne (by decide),
      he₃.block_self]
  · rw [h.luminance hground₄]
    decide
  · rw [lightAt_of_inChunks hground₄.sound.valid htorch', htorch₄]

end World

end VoxelWorld
