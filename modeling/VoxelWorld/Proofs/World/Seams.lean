import VoxelWorld.Proofs.Light.Still
import VoxelWorld.Proofs.World.Steps

/-!
# Proofs.World.Seams — no light seams while the world streams in

* A chunk is `Settled` once its light was spread into its neighbours.
* `Seamless` is what every step keeps: settled chunks have all their neighbours, and light would
  flow out of other chunks only.
* So wherever a run of calls has led, no light would flow out of a settled chunk
  (`no_light_seam`).
-/

namespace VoxelWorld

open Light (Still Glow Even Steep Adjacent OneGlow SkyThrough)

namespace World

variable {w w' w₀ : World} {c c' : ChunkCoord} {p a b : Pos} {id : BlockId} {k : LightKind}
  {top : Nat} {calls : List Call}

/-! ## Settled chunks -/

/-- The light of the chunk was spread into its neighbours. -/
def Settled (w : World) (c : ChunkCoord) : Prop :=
  ∃ chunk, w.chunkAt? c = some chunk ∧ chunk.isLightDirty = false

/-- A filled chunk is not settled, and the others are as settled as before. -/
theorem Filled.settled (h : Filled w w' c) : w'.Settled c' ↔ c' ≠ c ∧ w.Settled c' := by
  unfold Settled
  by_cases hc : c' = c
  · subst hc
    rcases h.chunk with ⟨chunk, hchunk, hlife⟩
    refine ⟨fun hs => ?_, fun hs => absurd rfl hs.1⟩
    rcases hs with ⟨chunk', hchunk', hclean⟩
    rw [hchunk] at hchunk'
    cases hchunk'
    unfold Chunk.isLightDirty at hclean
    rw [hlife] at hclean
    cases hclean
  · rw [h.other c' hc]
    exact ⟨fun hs => ⟨hc, hs⟩, fun hs => hs.2⟩

/-- Writing cells settles no chunk, and unsettles none. -/
theorem Framed.settled (h : Framed w w') : w'.Settled = w.Settled := by
  funext c
  apply propext
  constructor
  · intro hs
    rcases hs with ⟨chunk', hchunk', hclean⟩
    rcases h.back hchunk' with ⟨chunk, hchunk, hk⟩ | ⟨-, hblank⟩
    · exact ⟨chunk, hchunk, hk.isLightDirty.symm.trans hclean⟩
    · rw [hblank.isLightDirty] at hclean
      cases hclean
  · intro hs
    rcases hs with ⟨chunk, hchunk, hclean⟩
    rcases h.kept c chunk hchunk with ⟨chunk', hchunk', hk⟩
    exact ⟨chunk', hchunk', hk.isLightDirty.trans hclean⟩

/-- Another state may settle its own chunk. -/
theorem Relived.settled {chunk : Chunk} {life : Lifecycle} (h : Relived w w' c chunk life) :
    w'.Settled c' ↔ c' = c ∧ life.lightDirty = false ∨ c' ≠ c ∧ w.Settled c' := by
  unfold Settled
  by_cases hc : c' = c
  · subst hc
    rw [h.self]
    constructor
    · intro hs
      rcases hs with ⟨chunk', hchunk', hclean⟩
      cases hchunk'
      exact .inl ⟨rfl, hclean⟩
    · intro hs
      rcases hs with ⟨-, hclean⟩ | ⟨hne, -⟩
      · exact ⟨_, rfl, hclean⟩
      · exact absurd rfl hne
  · rw [h.other c' hc]
    constructor
    · intro hs
      exact .inr ⟨hc, hs⟩
    · intro hs
      exact (hs.resolve_left fun h => hc h.1).2

/-- A new state with the old flag settles nothing. -/
theorem Relived.settled_eq {chunk : Chunk} {life : Lifecycle} (h : Relived w w' c chunk life)
    (hc : w.chunkAt? c = some chunk) (hflag : life.lightDirty = chunk.isLightDirty) :
    w'.Settled = w.Settled := by
  funext c'
  apply propext
  rw [h.settled, hflag]
  by_cases hcc : c' = c
  · subst hcc
    constructor
    · intro hs
      exact ⟨chunk, hc, (hs.resolve_right fun h => h.1 rfl).2⟩
    · intro hs
      rcases hs with ⟨chunk', hchunk', hclean⟩
      rw [hc] at hchunk'
      cases hchunk'
      exact .inl ⟨rfl, hclean⟩
  · exact ⟨fun hs => (hs.resolve_left fun h => hcc h.1).2, fun hs => .inr ⟨hcc, hs⟩⟩

/-- Relighting settles its chunk, and leaves the others as they are. -/
theorem Lit.settled (h : Lit w w' c) : w'.Settled c' ↔ c' = c ∨ w.Settled c' := by
  rcases h.tracked with ⟨w₁, chunk, htracked, -, hrelived⟩
  rw [hrelived.settled, htracked.settled]
  constructor
  · intro hs
    rcases hs with ⟨heq, -⟩ | ⟨-, hs⟩
    · exact .inl heq
    · exact .inr hs
  · intro hs
    by_cases hc : c' = c
    · exact .inl ⟨hc, rfl⟩
    · exact .inr ⟨hc, hs.resolve_left hc⟩

/-! ## The invariant -/

/-- Light would flow out of chunks only that are not settled yet. -/
structure Seamless (top : Nat) (w : World) : Prop where
  sound : w.Sound
  around : ∀ c, w.Settled c → w.Surrounded c
  sky : Still w.registry w.field (InChunks w.dims w.Generated)
    (fun a => ¬ w.Settled (a.home w.dims)) (w.field.level .sky)
  block : Glow w.registry w.field (InChunks w.dims w.Generated) top
    (fun a => ¬ w.Settled (a.home w.dims)) (w.field.level .block)

/-- A pristine world has no seams. -/
theorem Pristine.seamless (h : w.Pristine) : w.Seamless top := by
  have hnone : ∀ q, ¬ InChunks w.dims w.Generated q := by
    intro q hq
    rcases hq with ⟨cell, -, hgen⟩
    exact h.not_generated hgen
  -- without chunks there is no light, and nothing that it could flow out of
  have hdark : ∀ q, w.field.level .block q = 0 := by
    intro q
    rw [h.sound.dark (hnone q)]
    split <;> rfl
  refine ⟨h.sound, ?_, ⟨?_, ?_⟩, ?_, ?_, ?_⟩
  · intro c hs
    rcases hs with ⟨chunk, hc, -⟩
    rw [h.chunkAt?] at hc
    cases hc
  · intro q hq
    exact absurd hq (hnone q)
  · intro a b ha
    exact absurd ha (hnone a)
  · intro q
    rw [hdark]
    exact Nat.zero_le top
  · intro q hq
    exact absurd hq (hnone q)
  · intro a b ha
    exact absurd ha (hnone a)

/-- A position sees what is one step away. -/
theorem sees_of_adjacent {d : Dims} (hd : d.Valid) (h : Adjacent a b) : Sees d (a.home d) b := by
  have hbound : ∀ o ∈ Light.directions, (-1 ≤ o.1 ∧ o.1 ≤ 1) ∧ (-1 ≤ o.2.2 ∧ o.2.2 ≤ 1) := by
    decide
  rcases h with ⟨o, ho, rfl⟩
  rcases hbound o ho with ⟨hx, hz⟩
  rcases (Pos.home_eq_iff hd).1 (rfl : a.home d = a.home d) with ⟨⟨hxl, hxh⟩, hzl, hzh⟩
  unfold Light.shift
  exact ⟨by simp only; omega, by simp only; omega, by simp only; omega, by simp only; omega⟩

theorem sees_self {d : Dims} (hd : d.Valid) : Sees d (a.home d) a := by
  rcases (Pos.home_eq_iff hd).1 (rfl : a.home d = a.home d) with ⟨⟨hxl, hxh⟩, hzl, hzh⟩
  exact ⟨by omega, by omega, by omega, by omega⟩

/-- A chunk whose neighbours are all there does not see another one come in, so if light would flow
out of it now, it would have before. -/
theorem Filled.steep_back (hf : Filled w w' c) (hd : w.dims.Valid)
    (hsurr : w.Surrounded (a.home w.dims))
    (hsteep : Steep (w'.field.Conducts w.registry) (w'.field.level k) a b) :
    w'.field.SameAt w.field a ∧ Steep (w.field.Conducts w.registry) (w.field.level k) a b := by
  rcases hsteep with ⟨hadj, hC, hlt⟩
  have ha := hf.sameAt (hf.unseen hd hsurr (sees_self hd)) hd
  have hb := hf.sameAt (hf.unseen hd hsurr (sees_of_adjacent hd hadj)) hd
  refine ⟨ha, hadj, (hb.conducts _).1 hC, ?_⟩
  rw [← ha.level, ← hb.level]
  exact hlt

/-- Blocks that stop light are dark in the new chunk too. -/
theorem Filled.stopped (hf : Filled w w' c) (hd : w.dims.Valid) (hthrough : SkyThrough w.registry)
    (hs : ∀ q, InChunks w.dims w.Generated q → ¬ w.field.Conducts w.registry q →
      w.field.level .sky q = 0)
    (ha : InChunks w'.dims w'.Generated a) (hC : ¬ w'.field.Conducts w.registry a) :
    w'.field.level .sky a = 0 := by
  rcases hf.inChunks ha with hac | ⟨hac, ha'⟩
  · -- the new cells have light only where the sky is open, and there they let it in
    rw [hf.skyLight a hac]
    refine LightField.skylight_of_covered fun hopen => hC ⟨(hf.sound.accepts_iff a).2 ha, ?_⟩
    refine hthrough _ (hopen.self ?_)
    rw [← hf.dims]
    exact (hf.sound.below ha).2
  · have hsame := hf.sameAt hac hd
    rw [hsame.level]
    exact hs a ha' fun hC' => hC ((hsame.conducts _).2 hC')

namespace Seamless

/-- Light that would flow out of a settled chunk would have done so before the other was filled. -/
theorem steep_of_filled (h : w.Seamless top) (hf : Filled w w' c)
    (hs : w'.Settled (a.home w.dims))
    (hsteep : Steep (w'.field.Conducts w.registry) (w'.field.level k) a b) :
    w.Settled (a.home w.dims) ∧ w'.field.SameAt w.field a ∧
      Steep (w.field.Conducts w.registry) (w.field.level k) a b := by
  have hs' := (hf.settled.1 hs).2
  exact ⟨hs', hf.steep_back h.sound.valid (h.around _ hs') hsteep⟩

/-- A filled chunk makes no seam, for settled chunks are surrounded and never beside it. -/
theorem fill (h : w.Seamless top) (hthrough : SkyThrough w.registry) (hf : Filled w w' c) :
    w'.Seamless top := by
  have hd := h.sound.valid
  have hA' := hf.sound.accepts_iff
  refine ⟨hf.sound, ?_, ⟨?_, ?_⟩, ?_, ?_, ?_⟩
  · intro c' hs
    exact hf.rules.surrounded (h.around c' (hf.settled.1 hs).2)
  · intro q hq hC
    rw [hf.registry] at hC
    exact hf.stopped hd hthrough h.sky.stopped hq hC
  · -- light that would flow out of a settled chunk would have done so before
    intro a b _ hC hsteep hs
    rw [hf.dims] at hs
    rw [hf.registry] at hC hsteep
    rcases h.steep_of_filled hf hs hsteep with ⟨hs', hsame, hsteep'⟩
    have hC' := (hsame.conducts _).1 hC
    exact h.sky.steep a b ((h.sound.accepts_iff a).1 hC'.1) hC' hsteep' hs'
  · intro q
    by_cases hqc : InChunks w.dims (· = c) q
    · rw [hf.blockLight q hqc]
      exact Nat.zero_le top
    · rw [(hf.sameAt hqc hd).level]
      exact h.block.le q
  · intro q hq hC
    rw [hf.registry] at hC ⊢
    rcases hf.inChunks hq with hqc | ⟨hqc, hq'⟩
    · exact .inl (hf.blockLight q hqc)
    · have hsame := hf.sameAt hqc hd
      unfold Light.Emits
      rw [hsame.level, hsame.block]
      exact h.block.stopped q hq' fun hC' => hC ((hsame.conducts _).2 hC')
  · intro a b ha hsteep hs
    rw [hf.dims] at hs
    rw [hf.registry] at hsteep
    rcases h.steep_of_filled hf hs hsteep with ⟨hs', hsame, hsteep'⟩
    refine h.block.steep a b ((h.sound.accepts_iff a).1 ?_) hsteep' hs'
    rw [← hsame.accepts]
    exact (hA' a).2 ha

/-- An edit carries its light on into every chunk around. -/
theorem edit (h : w.Seamless top) (hthrough : SkyThrough w.registry)
    (hone : OneGlow w.registry top) (hp : InChunks w.dims w.Generated p)
    (he : Edited w w' p id) : w'.Seamless top := by
  have hA := h.sound.accepts_iff
  have hframed := he.tracked.toFramed
  have hblock : (w.field.withBlock p id).block p = id := LightField.block_withBlock_self
  have hsame : ∀ q, q ≠ p → (w.field.withBlock p id).block q = w.field.block q :=
    fun _ => LightField.block_withBlock_of_ne
  rcases he.blockLight with ⟨M, hM, hold, hnew⟩
  -- the edit retracts the old light if the new cell stops light
  have hreason : ¬ (w.field.withBlock p id).Conducts w.registry p →
      0 < w.registry.luminance (w.field.block p) ∨ w.registry.isTranslucent id = false := by
    intro hstops
    right
    by_contra htr
    refine hstops ⟨(hA p).2 hp, ?_⟩
    rw [hblock]
    exact Bool.not_eq_false _ ▸ htr
  -- both channels get over the edit without a new hot cell
  have hsky : Still w.registry (w.field.withBlock p id) (InChunks w.dims w.Generated)
      (fun a => ¬ w.Settled (a.home w.dims)) (w'.field.level .sky) :=
    Still.swept hA rfl hsame h.sky hthrough (h.sound.below hp) he.sky
  have hglow : Glow w.registry (w.field.withBlock p id) (InChunks w.dims w.Generated) top
      (fun a => ¬ w.Settled (a.home w.dims)) (w'.field.level .block) :=
    Glow.edit (f := w.field) rfl hsame h.block hone hreason hM
      (hframed.sound.level_le .block) hold (by rwa [hblock])
  refine ⟨hframed.sound, ?_, ?_, ?_⟩
  · intro c hs
    rw [hframed.settled] at hs
    exact hframed.rules.surrounded (h.around c hs)
  · rw [hframed.registry, hframed.dims, hframed.generated_eq, hframed.settled]
    exact hsky.congr he.accepts he.block
  · rw [hframed.registry, hframed.dims, hframed.generated_eq, hframed.settled]
    exact hglow.congr he.accepts he.block

/-- Relighting settles a chunk, and leaves none of its cells with light to shed. -/
theorem light (h : w.Seamless top) (hc : w.Surrounded c) (hl : Lit w w' c) :
    w'.Seamless top := by
  have hA := h.sound.accepts_iff
  -- what was hot is hot still, or lies in the chunk, which sheds no more light
  have hcool : ∀ k a, InChunks w.dims w.Generated a → w'.field.Shines w.registry k a →
      ¬ w.Settled (a.home w.dims) → ¬ w'.Settled (a.home w.dims) ∨
        Even (w.field.Conducts w.registry) (w'.field.level k) a := by
    intro k a ha hshines hhot
    by_cases hhome : a.home w.dims = c
    · right
      rcases (inChunks_iff h.sound.valid).1 ha with ⟨-, hrest⟩
      have hin : InChunks w.dims (· = c) a := (inChunks_iff h.sound.valid).2 ⟨hhome, hrest⟩
      rw [← hl.relit.conducts]
      exact hl.calm a hin k hshines
    · refine .inl fun hs => ?_
      exact hhot ((hl.settled.1 hs).resolve_left hhome)
  have haccepts : ∀ a, InChunks w.dims w.Generated a → w'.field.accepts a = true := by
    intro a ha
    rw [hl.relit.accepts]
    exact (hA a).2 ha
  refine ⟨hl.sound, ?_, ?_, ?_⟩
  · intro c' hs
    apply hl.rules.surrounded
    rcases hl.settled.1 hs with heq | hs'
    · rw [heq]
      exact hc
    · exact h.around c' hs'
  · rw [hl.registry, hl.dims, hl.generated]
    refine Still.congr (h.sky.grown (hl.relit.grown .sky) fun a ha hC => ?_) hl.relit.accepts
      hl.relit.block
    refine hcool .sky a ha ⟨haccepts a ha, .inl ?_⟩
    rw [hl.relit.block]
    exact hC.2
  · rw [hl.registry, hl.dims, hl.generated]
    refine Glow.congr (h.block.grown (hl.relit.grown .block) (hl.sound.level_le .block)
      fun a ha hout => ?_) hl.relit.accepts hl.relit.block
    refine hcool .block a ha ⟨haccepts a ha, ?_⟩
    rw [hl.relit.block]
    rcases hout with hC | hemits
    · exact .inl hC.2
    · exact .inr ⟨rfl, hemits⟩

/-- The state of a chunk plays no part but for the flag. -/
theorem relive {chunk : Chunk} {life : Lifecycle} (h : w.Seamless top)
    (hr : Relived w w' c chunk life) (hc : w.chunkAt? c = some chunk)
    (hflag : life.lightDirty = chunk.isLightDirty) (hfresh : life.fresh = chunk.isFresh) :
    w'.Seamless top := by
  have hsettled := hr.settled_eq hc hflag
  have hgen : w'.Generated = w.Generated := funext fun _ => propext (hr.generated hc hfresh)
  refine ⟨hr.sound, ?_, ?_, ?_⟩
  · intro c' hs
    rw [hsettled] at hs
    unfold Surrounded
    rw [hgen]
    exact h.around c' hs
  · rw [hr.registry, hr.field, hr.dims, hgen, hsettled]
    exact h.sky
  · rw [hr.registry, hr.field, hr.dims, hgen, hsettled]
    exact h.block

/-- No step makes a seam. -/
theorem step (h : w.Seamless top) (hthrough : SkyThrough w.registry)
    (hone : OneGlow w.registry top) (hs : Step w w') : w'.Seamless top := by
  cases hs with
  | fill hf => exact h.fill hthrough hf
  | edit hp he => exact h.edit hthrough hone hp he
  | light hc hl => exact h.light hc hl
  | mesh _ hb =>
    exact h.relive hb.toRelived hb.was hb.installed.lightDirty hb.installed.fresh

/-- Drawing makes no seam. -/
theorem draw (h : w.Seamless top) (hd : Drawn w w') : w'.Seamless top := by
  cases hd with
  | idle => exact h
  | shown hc hshown hr => exact h.relive hr hc hshown.lightDirty hshown.fresh

/-- No light would flow out of a settled chunk. -/
theorem level_le (h : w.Seamless top) (hs : w.Settled c) (hp : InChunks w.dims (· = c) p)
    (hshed : w.registry.isTranslucent (w.field.block p) = true ∨ k = .block)
    (hadj : Adjacent p b) (hC : w.field.Conducts w.registry b) :
    w.field.level k p ≤ w.field.level k b + 1 := by
  have hhome := ((inChunks_iff h.sound.valid).1 hp).1
  have hA : InChunks w.dims w.Generated p := by
    apply hp.mono
    intro c' hc'
    rw [hc']
    exact (h.around c hs).1
  have hcold : ¬ ¬ w.Settled (p.home w.dims) := by
    rw [hhome]
    exact fun hhot => hhot hs
  -- a steeper fall would start at a cell that is still hot
  by_contra hgt
  have hsteep : Steep (w.field.Conducts w.registry) (w.field.level k) p b :=
    ⟨hadj, hC, by omega⟩
  cases k with
  | sky =>
    have htr := hshed.resolve_right nofun
    exact hcold (h.sky.steep p b hA ⟨(h.sound.accepts_iff p).2 hA, htr⟩ hsteep)
  | block => exact hcold (h.block.steep p b hA hsteep)

end Seamless

/-! ## Runs -/

/-- If all blocks that give off light have one luminance, they give one level. -/
theorem exists_oneGlow {reg : Registry} (hone : ∀ id id', 0 < reg.luminance id →
    0 < reg.luminance id' → reg.luminance id = reg.luminance id') : ∃ top, OneGlow reg top := by
  by_cases hsome : ∃ id, 0 < reg.luminance id
  · rcases hsome with ⟨id, hid⟩
    refine ⟨min (reg.luminance id) maxLight, fun id' hid' => ?_⟩
    rw [hone id' id hid' hid]
  · exact ⟨0, fun id hid => absurd ⟨id, hid⟩ hsome⟩

/-- Wherever calls have led from the empty world, a chunk whose light is not dirty has all its
neighbours, and none of its cells could brighten a cell beside it. -/
theorem no_light_seam {w : World} {chunk : Chunk} (h : w₀.Pristine)
    (hthrough : SkyThrough w₀.registry)
    (hone : ∀ id id', 0 < w₀.registry.luminance id → 0 < w₀.registry.luminance id' →
      w₀.registry.luminance id = w₀.registry.luminance id')
    (hcalls : ∀ call ∈ calls, call.Streams) (hrun : w₀.performAll calls = .ok w)
    (hc : w.chunkAt? c = some chunk) (hclean : chunk.isLightDirty = false) :
    (∀ o ∈ neighborOffsets, w.Generated (c.beside o)) ∧
      ∀ k p n, InChunks w.dims (· = c) p →
        w.registry.isTranslucent (w.field.block p) = true ∨
          k = .block ∧ 0 < w.registry.luminance (w.field.block p) →
        Adjacent p n → w.TranslucentIn w.Generated n →
        ∃ v u, w.lightAt p k = .ok v ∧ w.lightAt n k = .ok u ∧ v ≤ u + 1 := by
  rcases exists_oneGlow hone with ⟨top, htop⟩
  -- each step and each drawing keeps the world seamless
  have hrun' : Ensures True (w₀.performAll calls) fun w =>
      Ample True (fun _ => True) w ∧ SameRules w₀ w ∧ w.registry = w₀.registry ∧
        w.Seamless top := by
    refine performAll_induct (Ample.of_pristine h)
      (fun call hcall => (hcalls call hcall).around) ?_ ?_ ⟨rfl, h.seamless⟩
    · intro w w' hs hw
      rcases hw with ⟨hreg, hw⟩
      refine ⟨hs.rules.registry.trans hreg, hw.step ?_ ?_ hs⟩
      · rw [hreg]
        exact hthrough
      · rw [hreg]
        exact htop
    · intro w w' hsound hd hw
      exact ⟨(hd.rules hsound).registry.trans hw.1, hw.2.draw hd⟩
  rcases hrun'.of_eq_ok hrun with ⟨-, -, -, hw⟩
  have hs : w.Settled c := ⟨chunk, hc, hclean⟩
  -- so no pair out of the chunk is steep
  refine ⟨(hw.around c hs).2, fun k p n hp hshed hadj hn => ?_⟩
  refine ⟨_, _, lightAt_of_inChunks hw.sound.valid hp, lightAt_of_inChunks hw.sound.valid hn.1, ?_⟩
  rw [← hw.sound.conducts_eq] at hn
  exact hw.level_le hs hp (hshed.imp_right fun h => h.1) hadj hn

/-- A chunk of air in which a torch was placed, and the eight chunks around it. -/
theorem no_light_seam_smallest : ∃ w,
    smallest.performAll [.edit ⟨0, 0, 0⟩ 1, .process ⟨0, 0⟩] = .ok w ∧
      (∀ o ∈ neighborOffsets, w.Generated (ChunkCoord.beside ⟨0, 0⟩ o)) ∧
      ∀ k p n, InChunks w.dims (· = ⟨0, 0⟩) p →
        w.registry.isTranslucent (w.field.block p) = true ∨
          k = .block ∧ 0 < w.registry.luminance (w.field.block p) →
        Adjacent p n → w.TranslucentIn w.Generated n →
        ∃ v u, w.lightAt p k = .ok v ∧ w.lightAt n k = .ok u ∧ v ≤ u + 1 := by
  rcases smallest.exists_ready with ⟨w, chunk, hrun, hc, hclean, -⟩
  refine ⟨w, hrun,
    no_light_seam smallest.pristine smallest.translucent_of_open ?_ ?_ hrun hc hclean⟩
  · intro id id' hid hid'
    rw [smallest.luminance_of_pos hid, smallest.luminance_of_pos hid']
  · intro call hcall
    rcases List.mem_pair.1 hcall with rfl | rfl
    · trivial
    · trivial

end World

end VoxelWorld
