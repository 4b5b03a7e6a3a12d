import VoxelWorld.Proofs.World.Sources

/-!
# Proofs.World.Placing — placing blocks that give off light

A block that gives off light is written into the light with the level that it gives off, and spread
from there. Nothing is taken back for it, so the other cells only get brighter
(`Edited.level_mono`). Its own cell gets that level whether or not the light there was brighter.

* `placed_light_keeps_others` is the result for runs.
* `placed_torch_dims_its_cell` shows the cell of a weak torch beside a lamp.
-/

namespace VoxelWorld

namespace World

variable {w w' w₀ w₁ : World} {p q : Pos} {id : BlockId} {R : List ChunkCoord} {calls : List Call}

/-- Where no light is taken back, what is read of another cell only gets brighter. -/
theorem Edited.lightAt_mono (he : Edited w w' p id) (h : w.Sound)
    (hdark : w.registry.luminance (w.field.block p) = 0)
    (htr : w.registry.isTranslucent id = true) (hq : q ≠ p) {v : Nat}
    (hv : w.lightAt q .block = .ok v) : ∃ v', w'.lightAt q .block = .ok v' ∧ v ≤ v' := by
  have hd : w'.dims.Valid := he.tracked.sound.valid
  by_cases hin : InChunks w.dims w.Generated q
  · have hin' : InChunks w'.dims w.Generated q := he.tracked.dims ▸ hin
    rw [lightAt_of_inChunks h.valid hin] at hv
    cases hv
    exact ⟨_, lightAt_of_inChunks hd hin', he.level_mono hdark htr hq⟩
  · -- outside the generated chunks there is no block light, before or after
    have hin' : ¬ InChunks w'.dims w'.Generated q := by
      rwa [he.tracked.dims, he.tracked.generated_eq]
    have hsame : w'.field.level .block q = w.field.level .block q := by
      rw [h.dark hin, he.tracked.sound.dark hin', he.tracked.dims]
    rw [lightAt_congr h.valid he.tracked.dims hsame]
    exact ⟨v, hv, le_rfl⟩

/-- After every run, a translucent block that gives off light, placed where there was none that
does, leaves all other cells as bright as they were or brighter. Its own cell gets exactly the light
of the block. -/
theorem placed_light_keeps_others (h : w₀.Pristine) (hgen : w₀.generateAll R = .ok w₁)
    (hroom : ∀ c ∈ R, Roomy w₀.dims c) (hlum : ∀ id, w₀.registry.luminance id ≤ maxLight)
    (hin : ∀ call ∈ calls, call.Within w₀.dims (· ∈ R)) :
    ∃ w, w₁.performAll calls = .ok w ∧
      ∀ p b id, InChunks w.dims (· ∈ R) p → w.blockAt p = .ok b →
        w₀.registry.luminance b = 0 → w₀.registry.isTranslucent id = true →
        0 < w₀.registry.luminance id →
        ∃ w', w.setBlock p id = .ok (true, w') ∧
          w'.lightAt p .block = .ok (w₀.registry.luminance id) ∧
          ∀ q v, q ≠ p → w.lightAt q .block = .ok v →
            ∃ v', w'.lightAt q .block = .ok v' ∧ v ≤ v' := by
  rcases laid_of_generateAll h hgen with ⟨⟨huntouched, hdims, hreg, -, -⟩, hgenerated⟩
  rw [← hreg] at hlum ⊢
  rw [← hdims] at hroom hin
  rw [← hgenerated] at hin ⊢
  have hroom' : ∀ c, w₁.Generated c → Roomy w₁.dims c := by
    intro c hc
    rw [hgenerated] at hc
    exact hroom c hc
  -- the run ends, on the ground it began with
  have hrun : ∃ w, w₁.performAll calls = .ok w ∧ SameGround w₁ w ∧ True :=
    performAll_ensures huntouched.sound hroom' hin (I := fun _ _ => True) trivial
      (fun _ _ _ _ _ _ => trivial) (fun _ _ _ _ _ _ _ => trivial)
      fun _ _ _ _ _ _ _ _ _ _ _ _ _ => trivial
  rcases hrun with ⟨w, hok, hground, -⟩
  refine ⟨w, hok, fun p b id hp hb hold htr hpos => ?_⟩
  rw [blockAt_of_inChunks hground.sound.valid hp] at hb
  cases hb
  rw [← hground.registry] at hlum hold htr hpos ⊢
  -- the old block gives off no light and the new one does, so something changes
  have hne : w.field.block p ≠ id := by
    intro heq
    rw [heq] at hold
    omega
  have hp₁ : InChunks w₁.dims w₁.Generated p := hground.dims ▸ hp
  rcases exists_setBlock hground hroom' hp₁ hne with ⟨w', hset, he, hground'⟩
  refine ⟨w', hset, ?_, fun q v hq hv => he.lightAt_mono hground.sound hold htr hq hv⟩
  have hp' : InChunks w'.dims w₁.Generated p := by
    rwa [hground'.dims]
  rw [lightAt_of_inChunks hground'.sound.valid hp', he.level_self hpos, Nat.min_eq_left (hlum id)]

/-- A torch is placed below a lamp, and the lamp keeps its light. -/
theorem placed_light_keeps_others_lamp :
    ∃ w₁ w w', lanterns.generateAll [⟨0, 0⟩] = .ok w₁ ∧
      w₁.performAll [.edit ⟨0, 1, 0⟩ 2] = .ok w ∧ w.setBlock ⟨0, 0, 0⟩ 1 = .ok (true, w') ∧
      w'.lightAt ⟨0, 0, 0⟩ .block = .ok (lanterns.registry.luminance 1) ∧
      ∃ v, w'.lightAt ⟨0, 1, 0⟩ .block = .ok v ∧ 14 ≤ v := by
  rcases lanterns.exists_start with ⟨w₁, h⟩
  have htorch := (h.cells ⟨0, 0, 0⟩).2 (.inl rfl)
  have hlamp := (h.cells ⟨0, 1, 0⟩).2 (.inr rfl)
  rcases h.exists_lamp with ⟨w, hok, he, hground, hlevel⟩
  have hd := hground.sound.valid
  have hregion : InChunks w.dims (· ∈ [⟨0, 0⟩]) = InChunks w₁.dims w₁.Generated := by
    rw [hground.dims, h.region, h.dims]
  have hblock : w.blockAt ⟨0, 0, 0⟩ = .ok air := by
    rw [blockAt_of_inChunks hd (hregion ▸ htorch), he.block_of_ne (by decide), h.air _ htorch]
  -- the lamp is there before the torch, and shines with all its light
  have hlight : w.lightAt ⟨0, 1, 0⟩ .block = .ok 14 := by
    rw [lightAt_of_inChunks hd (hregion ▸ hlamp), hlevel]
  have hroom : ∀ c ∈ [(⟨0, 0⟩ : ChunkCoord)], Roomy lanterns.dims c := by
    intro c hc
    rw [lanterns.dims_eq, List.mem_singleton.1 hc]
    exact smallest.roomy (by decide) (by decide)
  have hlum : ∀ id, lanterns.registry.luminance id ≤ maxLight := by
    intro id
    rw [lanterns.luminance]
    split
    · decide
    · split <;> decide
  have hin : ∀ call ∈ [Call.edit ⟨0, 1, 0⟩ 2], call.Within lanterns.dims (· ∈ [⟨0, 0⟩]) := by
    intro call hcall
    rw [List.mem_singleton.1 hcall]
    exact lanterns.inChunks_iff.2 (.inr rfl)
  rcases placed_light_keeps_others lanterns.pristine h.run hroom hlum hin with ⟨w', hok', hplace⟩
  have hstart : w₁.performAll [] = .ok w₁ := rfl
  rw [show [Call.edit ⟨0, 1, 0⟩ 2] = [] ++ [.edit ⟨0, 1, 0⟩ 2] from rfl,
    performAll_snoc hstart hok] at hok'
  cases hok'
  rcases hplace ⟨0, 0, 0⟩ air 1 (hregion ▸ htorch) hblock (by rw [lanterns.luminance]; decide)
    lanterns.isTranslucent_torch (by rw [lanterns.luminance]; decide) with
    ⟨w', hset, hself, hothers⟩
  exact ⟨w₁, w, w', h.run, performAll_snoc hstart hok, hset, hself,
    hothers ⟨0, 1, 0⟩ 14 (by decide) hlight⟩

/-- A lamp is placed, and a torch below it: the cell of the torch gets darker. -/
theorem placed_torch_dims_its_cell :
    ∃ w₁, lanterns.generateAll [⟨0, 0⟩] = .ok w₁ ∧
      (∀ p, InChunks lanterns.dims (· ∈ [⟨0, 0⟩]) p → w₁.field.block p = air) ∧
      ∃ w, w₁.performAll [.edit ⟨0, 1, 0⟩ 2] = .ok w ∧ w.blockAt ⟨0, 0, 0⟩ = .ok air ∧
        w.registry.isTranslucent air = true ∧ w.registry.luminance air = 0 ∧
        w.registry.isTranslucent 1 = true ∧ 0 < w.registry.luminance 1 ∧
        ∃ v w', w.lightAt ⟨0, 0, 0⟩ .block = .ok v ∧ 13 ≤ v ∧
          w.setBlock ⟨0, 0, 0⟩ 1 = .ok (true, w') ∧ w'.lightAt ⟨0, 0, 0⟩ .block = .ok 5 := by
  rcases lanterns.exists_start with ⟨w₁, h⟩
  have htorch := (h.cells ⟨0, 0, 0⟩).2 (.inl rfl)
  rcases h.exists_lamp with ⟨w, hok, he, hground, -⟩
  have hblock : w.field.block ⟨0, 0, 0⟩ = air := by
    rw [he.block_of_ne (by decide), h.air _ htorch]
  have hin : ∀ {w}, SameGround w₁ w → InChunks w.dims w.Generated ⟨0, 0, 0⟩ := by
    intro w hground
    rwa [hground.dims, hground.generated]
  -- the lamp above lights the cell before the torch is there
  have hbright : 14 ≤ w.field.level .block ⟨0, 0, 0⟩ + 1 := by
    have hle := he.le_level_beside (q := ⟨0, 0, 0⟩) ?_ ⟨(0, -1, 0), by decide, rfl⟩ ?_
    · rwa [h.luminance h.ground] at hle
    · rw [h.luminance h.ground]
      decide
    · refine ⟨(h.ground.sound.accepts_iff _).2 htorch, ?_⟩
      rw [h.air _ htorch]
      exact h.isTranslucent_air h.ground
  have hne : w.field.block ⟨0, 0, 0⟩ ≠ 1 := by
    rw [hblock]
    decide
  rcases exists_setBlock hground h.roomy htorch hne with ⟨w', hset, he', hground'⟩
  refine ⟨w₁, h.run, h.region ▸ h.air, w, ?_, ?_, h.isTranslucent_air hground, ?_,
    h.isTranslucent_torch hground, ?_, _, w',
    lightAt_of_inChunks hground.sound.valid (hin hground), by omega, hset, ?_⟩
  · have hstart : w₁.performAll [] = .ok w₁ := rfl
    exact performAll_snoc hstart hok
  · rw [blockAt_of_inChunks hground.sound.valid (hin hground), hblock]
  · rw [h.luminance hground]
    decide
  · rw [h.luminance hground]
    decide
  · rw [lightAt_of_inChunks hground'.sound.valid (hin hground'), he'.level_self] <;>
      rw [h.luminance hground] <;> decide

end World

end VoxelWorld
