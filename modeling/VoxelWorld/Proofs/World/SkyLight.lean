import VoxelWorld.Proofs.Light.Sunlight
import VoxelWorld.Proofs.World.Calls

/-!
# Proofs.World.SkyLight — sky light that is brought up to date equals light from scratch

* `sunlight` is the sky light from scratch of some chunks.
* Right after the chunks were generated every cell may be hot; relighting a chunk cools it
  down, and edits make nothing hot (`Untouched.sunlit`, `Lit.sunlit`, `Edited.sunlit`).
* So once each chunk has been relit the sky light is the light from scratch, whatever was
  edited in between (`skyLight_from_scratch`).

An edit of a column whose top cell then lets light through and yet covers the sky is left out:
such a cell would take light from above the world.
-/

namespace VoxelWorld

open Light (Sunlit Still Levels SkyThrough ClearTop OpenIn brightest)

namespace World

variable {w w' w₀ w₁ : World} {c : ChunkCoord} {p : Pos} {id : BlockId} {R : List ChunkCoord}
  {calls : List Call} {Hot Hot' : Pos → Prop}

open Classical in
/-- Sky light from scratch: full where no block of the column covers the sky from the cell up,
and one less with each step through translucent cells. -/
noncomputable def sunlight (w : World) (R : ChunkCoord → Prop) : Levels :=
  brightest (w.TranslucentIn R) fun s =>
    if InChunks w.dims R s ∧ w.field.OpenToSky w.registry w.dims.height s then maxLight else 0

/-! ## What the calls keep -/

/-- The sky light of the generated chunks, some cells of which are hot. -/
def Sunny (w : World) (Hot : Pos → Prop) : Prop :=
  Sunlit w.registry w.field (InChunks w.dims w.Generated) w.dims.height Hot
    (w.field.level .sky)

/-- More cells may count as hot. -/
theorem Sunny.mono (hs : w.Sunny Hot) (h : w.Sound)
    (hhot : ∀ a, InChunks w.dims w.Generated a → Hot a → Hot' a) : w.Sunny Hot' :=
  Sunlit.grown hs h.accepts_iff Light.Grown.refl (h.level_le .sky) fun a ha _ hot =>
    .inl (hhot a ha hot)

/-- The light of new chunks comes from the sky and was not spread. -/
theorem Untouched.sunlit (h : w.Untouched) (hthrough : SkyThrough w.registry)
    (hhot : ∀ q, InChunks w.dims w.Generated q → Hot q) : w.Sunny Hot := by
  have hA := h.sound.accepts_iff
  refine ⟨⟨?_, fun a _ ha _ _ => hhot a ha⟩, ?_, ?_, ?_⟩
  · intro q hq hC
    rw [h.skyLight q hq]
    refine LightField.skylight_of_covered fun hopen => hC ?_
    have hin : OpenIn w.registry w.field (InChunks w.dims w.Generated) w.dims.height q :=
      ⟨hq, hopen⟩
    exact hin.conducts hthrough hA (h.sound.below hq).2
  · intro q hq hy
    rw [h.sound.dark hq, if_neg (by omega)]
  · intro q hq
    rw [h.skyLight q hq.1]
    exact LightField.skylight_of_open hq.2
  · -- all light there is comes from the sky
    intro q hq hpos
    refine .inl ⟨hq, ?_⟩
    by_contra hcov
    rw [h.skyLight q hq, LightField.skylight_of_covered hcov] at hpos
    exact absurd hpos (lt_irrefl 0)

/-- Relighting a chunk cools it down. -/
theorem Lit.sunlit (hl : Lit w w' c) (h : w.Sound) (hs : w.Sunny Hot)
    (hcool : ∀ a, Hot a → Hot' a ∨ a.home w.dims = c) : w'.Sunny Hot' := by
  have hA := h.accepts_iff
  unfold Sunny
  rw [hl.registry, hl.dims, hl.generated]
  refine Sunlit.congr (Sunlit.grown hs hA (hl.relit.grown .sky) (hl.sound.level_le .sky) ?_)
    hl.relit.accepts hl.relit.block
  intro a ha hC hhot
  rcases hcool a hhot with hhot' | hhome
  · exact .inl hhot'
  · right
    have hin : InChunks w.dims (· = c) a := by
      rcases (inChunks_iff h.valid).1 ha with ⟨-, hrest⟩
      exact (inChunks_iff h.valid).2 ⟨hhome, hrest⟩
    -- the relit chunk sheds no more light
    rw [← hl.relit.conducts] at hC ⊢
    exact hl.calm a hin .sky ⟨hC.1, .inl hC.2⟩

/-- An edit keeps all open cells bright, all light supported and makes nothing hot. -/
theorem Edited.sunlit (he : Edited w w' p id) (h : w.Sound) (hs : w.Sunny Hot)
    (hthrough : SkyThrough w.registry) (hp : InChunks w.dims w.Generated p)
    (htop : ClearTop w.registry w'.field w.dims.height p) : w'.Sunny Hot := by
  have hA := h.accepts_iff
  have hcol : ∀ y : Nat, y < w.dims.height.toNat →
      InChunks w.dims w.Generated ⟨p.x, y, p.z⟩ := fun y hy => column_inChunks h.valid hp hy
  have hsame : ∀ q, q ≠ p → (w.field.withBlock p id).block q = w.field.block q :=
    fun _ => LightField.block_withBlock_of_ne
  have htop' : ClearTop w.registry (w.field.withBlock p id) w.dims.height p := by
    unfold ClearTop at htop ⊢
    rw [he.block] at htop
    exact htop
  unfold Sunny
  rw [he.tracked.registry, he.tracked.dims, he.tracked.generated_eq]
  -- the sweep of the column gives the light of the new blocks
  have hdone : Sunlit w.registry (w.field.withBlock p id) (InChunks w.dims w.Generated)
      w.dims.height Hot (w'.field.level .sky) :=
    Sunlit.swept hA rfl hsame (fun q hq => (h.below hq).2) hs hthrough htop'
      (fun q hq => (h.below hq).1) hp hcol he.sky
  exact hdone.congr he.accepts he.block

/-- Without hot cells the sky light is the light from scratch. -/
theorem Sunny.eq_sunlight (h : w.Sound) (hthrough : SkyThrough w.registry)
    (hs : w.Sunny fun _ => False) (hp : InChunks w.dims w.Generated p) :
    w.field.level .sky p = w.sunlight w.Generated p := by
  have hA := h.accepts_iff
  unfold sunlight
  rw [← h.conducts_eq]
  refine Sunlit.eq_brightest hs hthrough hA (fun q hq => (h.below hq).2) (h.level_le .sky) ?_ ?_
    hp
  · intro q hq
    exact if_pos hq
  · intro q hq
    exact if_neg hq

/-! ## Runs -/

/-- However blocks were edited in between, once each chunk has been relit the sky light of all
chunks is the light from scratch. -/
theorem skyLight_from_scratch (h : w₀.Pristine) (hgen : w₀.generateAll R = .ok w₁)
    (hroom : ∀ c ∈ R, Roomy w₀.dims c) (hthrough : SkyThrough w₀.registry)
    (hin : ∀ call ∈ calls, call.Within w₀.dims (· ∈ R))
    (hall : ∀ c ∈ R, .relight c ∈ calls)
    (htop : ∀ pre p id post w w', calls = pre ++ .edit p id :: post →
      w₁.performAll pre = .ok w → w.setBlock p id = .ok (true, w') →
      ClearTop w₀.registry w'.field w₀.dims.height p) :
    ∃ w, w₁.performAll calls = .ok w ∧
      ∀ p, InChunks w.dims (· ∈ R) p → w.lightAt p .sky = .ok (w.sunlight (· ∈ R) p) := by
  rcases laid_of_generateAll h hgen with ⟨⟨huntouched, hdims, hreg, -, -⟩, hgenerated⟩
  rw [← hreg] at hthrough htop
  rw [← hdims] at hroom hin htop
  rw [← hgenerated] at hin ⊢
  have hroom' : ∀ c, w₁.Generated c → Roomy w₁.dims c := by
    intro c hc
    rw [hgenerated] at hc
    exact hroom c hc
  -- hot are the cells of the chunks that are still to be relit
  have hrun : ∃ w, w₁.performAll calls = .ok w ∧ SameGround w₁ w ∧
      w.Sunny fun a => .relight (a.home w₁.dims) ∈ ([] : List Call) := by
    refine performAll_ensures huntouched.sound hroom' hin
      (I := fun rest w => w.Sunny fun a => .relight (a.home w₁.dims) ∈ rest) ?_ ?_ ?_ ?_
    · refine huntouched.sunlit hthrough fun q hq => ?_
      have hc := ((inChunks_iff huntouched.sound.valid).1 hq).1
      rw [hgenerated] at hc
      exact hall _ hc
    · intro call rest w hground hidle hsunny
      refine hsunny.mono hground.sound fun a ha hhot => ?_
      rcases List.mem_cons.1 hhot with heq | hmem
      · have hc := ((inChunks_iff hground.sound.valid).1 ha).1
        rw [hground.dims] at hc
        exact absurd hc (hidle _ heq.symm)
      · exact hmem
    · intro c rest w w' hground hl hsunny
      refine hl.sunlit hground.sound hsunny fun a hhot => ?_
      rcases List.mem_cons.1 hhot with heq | hmem
      · rw [hground.dims]
        cases heq
        exact .inr rfl
      · exact .inl hmem
    · -- an edit with a clear top makes no chunk late
      intro pre p id rest w w' hcalls hpre hok hground hp he hsunny
      have hthrough' : SkyThrough w.registry := by
        rw [hground.registry]
        exact hthrough
      have htop' := htop pre p id rest w w' hcalls hpre hok
      rw [← hground.registry, ← hground.dims] at htop'
      have hw' := he.sunlit hground.sound hsunny hthrough' hp htop'
      refine hw'.mono he.tracked.sound fun a _ hhot => ?_
      rcases List.mem_cons.1 hhot with heq | hmem
      · cases heq
      · exact hmem
  -- in the end nothing is hot
  rcases hrun with ⟨w, hok, hground, hsunny⟩
  refine ⟨w, hok, fun p hp => ?_⟩
  rw [lightAt_of_inChunks hground.sound.valid hp]
  rw [← hground.generated] at hp ⊢
  rw [← hground.registry] at hthrough
  have hcold : w.Sunny fun _ => False := by
    have hnil : (fun a : Pos => Call.relight (a.home w₁.dims) ∈ ([] : List Call)) =
        fun _ => False := by
      funext a
      exact propext ⟨List.not_mem_nil, False.elim⟩
    rwa [hnil] at hsunny
  rw [hcold.eq_sunlight hground.sound hthrough hp]

/-- Two chunks of torches and air, one of which is relit before a block is put on its top. -/
theorem skyLight_from_scratch_smallest :
    ∃ w₁, smallest.generateAll [⟨0, 0⟩, ⟨1, 0⟩] = .ok w₁ ∧
      ∃ w, w₁.performAll [.relight ⟨0, 0⟩, .edit ⟨0, 1, 0⟩ 2, .relight ⟨1, 0⟩] = .ok w ∧
        ∀ p, InChunks w.dims (· ∈ [⟨0, 0⟩, ⟨1, 0⟩]) p →
          w.lightAt p .sky = .ok (w.sunlight (· ∈ [⟨0, 0⟩, ⟨1, 0⟩]) p) := by
  have hroom : ∀ c ∈ [(⟨0, 0⟩ : ChunkCoord), ⟨1, 0⟩], Roomy smallest.dims c := by
    intro c hc
    rcases List.mem_pair.1 hc with rfl | rfl
    · exact smallest.roomy (by decide) (by decide)
    · exact smallest.roomy (by decide) (by decide)
  rcases smallest.exists_generateAll hroom with ⟨w₁, hgen, -⟩
  refine ⟨w₁, hgen, skyLight_from_scratch smallest.pristine hgen hroom
    smallest.translucent_of_open ?_ ?_ ?_⟩
  · intro call hcall
    simp only [List.mem_cons, List.not_mem_nil, or_false] at hcall
    rcases hcall with rfl | rfl | rfl
    · trivial
    · exact ⟨_, rfl, by decide⟩
    · trivial
  · intro c hc
    rcases List.mem_pair.1 hc with rfl | rfl
    · exact List.mem_cons_self
    · exact List.mem_cons_of_mem _ (List.mem_cons_of_mem _ List.mem_cons_self)
  · -- in this world whatever covers the sky also stops light
    intro _ p _ _ _ w' _ _ _ y _ hcovers
    rw [smallest.coversSky] at hcovers
    exact Bool.not_eq_true' _ ▸ hcovers

end World

end VoxelWorld
