import VoxelWorld.Proofs.World.Calls

/-!
# Proofs.World.BlockLight — block light that is brought up to date equals light from scratch

* `lamplight` is the block light from scratch of some chunks.
* New chunks without blocks that give off light are dark; relighting and edits keep block light
  as it should be (`Untouched.lamplit`, `Lit.lamplit`, `Edited.lamplit`).
* So after every run the block light is the light from scratch (`blockLight_from_scratch`).

All blocks that give off light must do so at one level: taking back the light of a weaker block
would leave that of a stronger one beside it.
-/

namespace VoxelWorld

open Light (Glowing Levels OneGlow Emits EmitsIn brightest)

namespace World

variable {w w' w₀ w₁ : World} {c : ChunkCoord} {p : Pos} {id : BlockId} {R : List ChunkCoord}
  {calls : List Call} {top : Nat}

open Classical in
/-- Block light from scratch: what each block gives off, and one less with each step through
translucent cells. -/
noncomputable def lamplight (w : World) (R : ChunkCoord → Prop) : Levels :=
  brightest (w.TranslucentIn R) fun s =>
    if InChunks w.dims R s then w.registry.luminance (w.field.block s) else 0

/-! ## What the calls keep -/

/-- The block light of the generated chunks is as it should be. -/
def Lamplit (w : World) (top : Nat) : Prop :=
  Glowing w.registry w.field (InChunks w.dims w.Generated) top (w.field.level .block)

/-- New chunks are dark, and should be as long as no block gives off light. -/
theorem Untouched.lamplit (h : w.Untouched)
    (hdark : ∀ q, InChunks w.dims w.Generated q → ¬ Emits w.registry w.field q) :
    w.Lamplit top := by
  have hzero : ∀ q, w.field.level .block q = 0 := by
    intro q
    by_cases hq : InChunks w.dims w.Generated q
    · exact h.blockLight q hq
    · rw [h.sound.dark hq]
      split <;> rfl
  -- with all levels zero there is nothing to check but that no cell should be lit
  refine ⟨⟨?_, ?_, ?_⟩, ?_, ?_, ?_⟩
  · intro q
    rw [hzero]
    exact Nat.zero_le top
  · intro q _ _
    exact .inl (hzero q)
  · intro a b _ hsteep
    have hlt := hsteep.2.2
    rw [hzero a] at hlt
    omega
  · intro q _
    exact hzero q
  · intro q hq
    exact absurd hq.2 (hdark q hq.1)
  · intro q _ hpos
    rw [hzero] at hpos
    exact absurd hpos (lt_irrefl 0)

/-- Relighting a chunk changes nothing about it. -/
theorem Lit.lamplit (hl : Lit w w' c) (h : w.Sound) (hg : w.Lamplit top) : w'.Lamplit top := by
  unfold Lamplit
  rw [hl.registry, hl.dims, hl.generated]
  have hgrown := Glowing.grown hg h.accepts_iff (hl.relit.grown .block)
    (hl.sound.level_le .block)
  exact hgrown.congr hl.relit.accepts hl.relit.block

/-- After an edit the light is as it should be under the new blocks. -/
theorem Edited.lamplit (he : Edited w w' p id) (h : w.Sound) (hg : w.Lamplit top)
    (hone : OneGlow w.registry top) (hp : InChunks w.dims w.Generated p) : w'.Lamplit top := by
  have hA := h.accepts_iff
  have hblock : (w.field.withBlock p id).block p = id := LightField.block_withBlock_self
  have hsame : ∀ q, q ≠ p → (w.field.withBlock p id).block q = w.field.block q :=
    fun _ => LightField.block_withBlock_of_ne
  rcases he.blockLight with ⟨M, hM, hold, hnew⟩
  -- light is taken back if the cell gave it off or no longer lets it through
  have hreason : Emits w.registry w.field p ∨ ¬ (w.field.withBlock p id).Conducts w.registry p →
      0 < w.registry.luminance (w.field.block p) ∨ w.registry.isTranslucent id = false := by
    intro hr
    rcases hr with hemits | hstops
    · exact .inl hemits
    · right
      by_contra htr
      refine hstops ⟨(hA p).2 hp, ?_⟩
      rw [hblock]
      exact Bool.not_eq_false _ ▸ htr
  unfold Lamplit
  rw [he.tracked.registry, he.tracked.dims, he.tracked.generated_eq]
  have hdone : Glowing w.registry (w.field.withBlock p id) (InChunks w.dims w.Generated) top
      (w'.field.level .block) :=
    Glowing.edit (f := w.field) rfl hsame hg hA hone hreason hp hM
      (he.tracked.sound.level_le .block) hold (by rwa [hblock])
  exact hdone.congr he.accepts he.block

/-- Block light as it should be is the light from scratch. -/
theorem Lamplit.eq_lamplight (hg : w.Lamplit top) (h : w.Sound)
    (hone : ∀ id, 0 < w.registry.luminance id → w.registry.luminance id = top)
    (hp : InChunks w.dims w.Generated p) :
    w.field.level .block p = w.lamplight w.Generated p := by
  unfold lamplight
  rw [← h.conducts_eq]
  refine Glowing.eq_brightest hg h.accepts_iff (h.level_le .block) ?_ ?_ hp
  · intro q hq
    rw [if_pos hq.1]
    exact hone _ hq.2
  · intro q hq
    by_cases hin : InChunks w.dims w.Generated q
    · rw [if_pos hin]
      by_contra hne
      exact hq ⟨hin, Nat.pos_of_ne_zero hne⟩
    · exact if_neg hin

/-! ## Runs -/

/-- Whatever was edited and relit, the block light of all chunks is the light from scratch. -/
theorem blockLight_from_scratch (h : w₀.Pristine) (hgen : w₀.generateAll R = .ok w₁)
    (hroom : ∀ c ∈ R, Roomy w₀.dims c) (htop : top ≤ maxLight)
    (hone : ∀ id, 0 < w₀.registry.luminance id → w₀.registry.luminance id = top)
    (hdark : ∀ p, InChunks w₀.dims (· ∈ R) p → w₀.registry.luminance (w₁.field.block p) = 0)
    (hin : ∀ call ∈ calls, call.Within w₀.dims (· ∈ R)) :
    ∃ w, w₁.performAll calls = .ok w ∧
      ∀ p, InChunks w.dims (· ∈ R) p → w.lightAt p .block = .ok (w.lamplight (· ∈ R) p) := by
  rcases laid_of_generateAll h hgen with ⟨⟨huntouched, hdims, hreg, -, -⟩, hgenerated⟩
  rw [← hreg] at hone hdark
  rw [← hdims] at hroom hin hdark
  rw [← hgenerated] at hin hdark ⊢
  have hroom' : ∀ c, w₁.Generated c → Roomy w₁.dims c := by
    intro c hc
    rw [hgenerated] at hc
    exact hroom c hc
  -- the state of block light is kept by each call by itself
  have hrun : ∃ w, w₁.performAll calls = .ok w ∧ SameGround w₁ w ∧ w.Lamplit top := by
    refine performAll_ensures huntouched.sound hroom' hin (I := fun _ w => w.Lamplit top)
      ?_ ?_ ?_ ?_
    · refine huntouched.lamplit fun q hq hemits => ?_
      have hzero := hdark q hq
      unfold Emits at hemits
      omega
    · intro call rest w _ _ hg
      exact hg
    · intro c rest w w' hground hl hg
      exact hl.lamplit hground.sound hg
    · intro pre p id rest w w' _ _ _ hground hp he hg
      refine he.lamplit hground.sound hg ?_ hp
      intro id' hpos
      rw [hground.registry] at hpos ⊢
      rw [hone id' hpos]
      exact Nat.min_eq_left htop
  -- and in the end it is the light from scratch
  rcases hrun with ⟨w, hok, hground, hg⟩
  refine ⟨w, hok, fun p hp => ?_⟩
  rw [lightAt_of_inChunks hground.sound.valid hp]
  rw [← hground.generated] at hp ⊢
  rw [← hground.registry] at hone
  rw [hg.eq_lamplight hground.sound hone hp]

/-- Two chunks of torches and air, in one of which a torch is placed and then walled up. -/
theorem blockLight_from_scratch_smallest :
    ∃ w₁, smallest.generateAll [⟨0, 0⟩, ⟨1, 0⟩] = .ok w₁ ∧
      ∃ w, w₁.performAll [.edit ⟨0, 0, 0⟩ 1, .relight ⟨0, 0⟩, .edit ⟨1, 0, 0⟩ 2] = .ok w ∧
        ∀ p, InChunks w.dims (· ∈ [⟨0, 0⟩, ⟨1, 0⟩]) p →
          w.lightAt p .block = .ok (w.lamplight (· ∈ [⟨0, 0⟩, ⟨1, 0⟩]) p) := by
  have hroom : ∀ c ∈ [(⟨0, 0⟩ : ChunkCoord), ⟨1, 0⟩], Roomy smallest.dims c := by
    intro c hc
    rcases List.mem_pair.1 hc with rfl | rfl
    · exact smallest.roomy (by decide) (by decide)
    · exact smallest.roomy (by decide) (by decide)
  rcases smallest.exists_generateAll hroom with ⟨w₁, hgen, hair⟩
  refine ⟨w₁, hgen, blockLight_from_scratch smallest.pristine hgen hroom (by decide)
    (fun _ => smallest.luminance_of_pos) ?_ ?_⟩
  · intro p hp
    rw [hair p hp, smallest.luminance]
    rfl
  · intro call hcall
    simp only [List.mem_cons, List.not_mem_nil, or_false] at hcall
    rcases hcall with rfl | rfl | rfl
    · exact ⟨_, rfl, by decide⟩
    · trivial
    · exact ⟨_, rfl, by decide⟩

end World

end VoxelWorld
