import VoxelWorld.Proofs.World.Reload
import VoxelWorld.Proofs.World.Seams

/-!
# Proofs.World.Undisturbed — chunks in which no block is placed

* `Undisturbed` is what steps keep of such a chunk: its cells have at least what the sky gives to
  them, and once its light was spread no sky light would flow out of it.
* Filling, relighting and meshing any chunk keep it, and so does an edit in another chunk. So it
  holds wherever a run of calls that spare the chunk has led (`performAll_undisturbed`).
-/

namespace VoxelWorld.World

open Light (Even)

variable {w w' w₀ : World} {c c' : ChunkCoord} {chunk : Chunk} {p : Pos} {id : BlockId}
  {calls : List Call}

/-- No block has been placed in the chunk: its cells have at least what the sky gives to them, and
no sky light would flow out of it once it was spread. -/
structure Undisturbed (c : ChunkCoord) (w : World) : Prop where
  sound : w.Sound
  around : w.Settled c → w.Surrounded c
  bright : w.Generated c → ∀ q, InChunks w.dims (· = c) q →
    w.field.skylight w.registry w.dims.height q ≤ w.field.level .sky q
  even : w.Settled c → ∀ q, InChunks w.dims (· = c) q → w.field.Conducts w.registry q →
    Even (w.field.Conducts w.registry) (w.field.level .sky) q

/-- A pristine world has no blocks placed in it. -/
theorem Pristine.undisturbed (h : w.Pristine) : w.Undisturbed c := by
  have hno : ¬ w.Settled c := by
    rintro ⟨chunk, hc, -⟩
    rw [h.chunkAt?] at hc
    cases hc
  exact ⟨h.sound, fun hs => absurd hs hno, fun hgen => absurd hgen h.not_generated,
    fun hs => absurd hs hno⟩

namespace Undisturbed

/-- A new chunk has the light of the sky, and gives nothing to a chunk that is settled. -/
theorem fill (h : w.Undisturbed c) (hf : Filled w w' c') : w'.Undisturbed c := by
  have hd := h.sound.valid
  refine ⟨hf.sound, fun hs => hf.rules.surrounded (h.around (hf.settled.1 hs).2), ?_, ?_⟩
  · intro hgen q hq
    rw [hf.dims] at hq
    -- the chunk that was filled has exactly what the sky gives, others what they had
    by_cases hc : c = c'
    · subst hc
      rw [hf.skyLight q hq, hf.registry, hf.dims]
    · have hqc : ¬ InChunks w.dims (· = c') q := fun hin => hc (hq.unique hin)
      rw [hf.skylight_eq hd hq hqc, (hf.sameAt hqc hd).level]
      exact h.bright ((hf.generated.1 hgen).resolve_left hc) q hq
  · intro hs q hq hC b hsteep
    rw [hf.dims] at hq
    rw [hf.registry] at hC hsteep
    have hs' := (hf.settled.1 hs).2
    have hhome : q.home w.dims = c := ((inChunks_iff hd).1 hq).1
    have hsurr : w.Surrounded (q.home w.dims) := by
      rw [hhome]
      exact h.around hs'
    rcases hf.steep_back hd hsurr hsteep with ⟨hsame, hsteep'⟩
    exact h.even hs' q hq ((hsame.conducts _).1 hC) b hsteep'

/-- Relighting only adds light, and leaves its own chunk with none to shed. -/
theorem light (h : w.Undisturbed c) (hc' : w.Surrounded c') (hl : Lit w w' c') :
    w'.Undisturbed c := by
  refine ⟨hl.sound, fun hs => ?_, fun hgen q hq => ?_, fun hs q hq hC => ?_⟩
  · apply hl.rules.surrounded
    rcases hl.settled.1 hs with rfl | hs'
    · exact hc'
    · exact h.around hs'
  · rw [hl.generated] at hgen
    rw [hl.dims] at hq
    have hsky : w'.field.skylight w'.registry w'.dims.height q =
        w.field.skylight w.registry w.dims.height q := by
      rw [hl.registry, hl.dims]
      exact LightField.skylight_congr rfl fun _ _ _ => by rw [hl.relit.block]
    rw [hsky]
    exact (h.bright hgen q hq).trans ((hl.relit.grown .sky).mono q)
  · rw [hl.dims] at hq
    rw [hl.registry] at hC ⊢
    -- the relit chunk is calm by itself, the others stay even
    rcases hl.settled.1 hs with rfl | hs'
    · exact hl.calm q hq .sky hC.shines
    · rw [hl.relit.conducts] at hC ⊢
      exact (hl.relit.grown .sky).even_of_even (h.even hs' q hq hC)

/-- What the field does not show disturbs nothing. -/
theorem relive {life : Lifecycle} (h : w.Undisturbed c) (hr : Relived w w' c' chunk life)
    (hc : w.chunkAt? c' = some chunk) (hflag : life.lightDirty = chunk.isLightDirty)
    (hfresh : life.fresh = chunk.isFresh) : w'.Undisturbed c := by
  have hsettled := hr.settled_eq hc hflag
  have hgen : w'.Generated = w.Generated := funext fun _ => propext (hr.generated hc hfresh)
  refine ⟨hr.sound, ?_, ?_, ?_⟩
  · unfold Surrounded
    rw [hsettled, hgen]
    exact h.around
  · rw [hgen, hr.registry, hr.dims, hr.field]
    exact h.bright
  · rw [hsettled, hr.registry, hr.dims, hr.field]
    exact h.even

/-- An edit elsewhere keeps the open cells bright, and lets no light flow out. -/
theorem edit (h : w.Undisturbed c) (hp : InChunks w.dims w.Generated p)
    (hout : ¬ InChunks w.dims (· = c) p) (he : Edited w w' p id) : w'.Undisturbed c := by
  have hd := h.sound.valid
  have hframed := he.tracked.toFramed
  have hpy := h.sound.below hp
  -- the column of the edited cell lies in another chunk
  have hcolumn : ∀ q, InChunks w.dims (· = c) q → ¬ (q.x = p.x ∧ q.z = p.z) := by
    rintro q hq ⟨hx, hz⟩
    apply hout
    have hcell := column_inChunks hd hq (y := p.y.toNat) (by omega)
    rwa [hx, hz, Int.toNat_of_nonneg hpy.1] at hcell
  refine ⟨hframed.sound, fun hs => ?_, fun hgen q hq => ?_, fun hs q hq hC => ?_⟩
  · rw [hframed.settled] at hs
    exact hframed.rules.surrounded (h.around hs)
  · rw [hframed.generated_eq] at hgen
    rw [hframed.dims] at hq
    have hsky : w'.field.skylight w'.registry w'.dims.height q =
        w.field.skylight w.registry w.dims.height q := by
      rw [hframed.registry, hframed.dims]
      refine LightField.skylight_congr rfl fun y _ _ => he.block_of_ne ?_
      rintro rfl
      exact hcolumn q hq ⟨rfl, rfl⟩
    rw [hsky]
    have hbright := h.bright hgen q hq
    -- under the open sky the light was full and the sweep of another column leaves it so
    by_cases ho : w.field.OpenToSky w.registry w.dims.height q
    · rw [LightField.skylight_of_open ho] at hbright ⊢
      have hfull := Nat.le_antisymm (h.sound.level_le .sky q) hbright
      refine (he.sky.eq_maxLight (fun y heq => hcolumn q hq ?_) hfull).ge
      rw [heq]
      exact ⟨rfl, rfl⟩
    · rw [LightField.skylight_of_covered ho]
      exact Nat.zero_le _
  · rw [hframed.settled] at hs
    rw [hframed.dims] at hq
    rw [hframed.registry] at hC ⊢
    have hC' : w'.field.Conducts w.registry = (w.field.withBlock p id).Conducts w.registry :=
      LightField.conducts_congr he.accepts he.block
    have hqp : q ≠ p := by
      rintro rfl
      exact hout hq
    have hacc : (w.field.withBlock p id).accepts = w.field.accepts := rfl
    rw [hC'] at hC ⊢
    exact he.sky.even hacc (fun _ => LightField.block_withBlock_of_ne) hpy
      ((h.sound.accepts_iff q).1 hC.1) hC
      (h.even hs q hq ((LightField.conducts_withBlock_of_ne hqp).1 hC))

/-- No quiet step disturbs a chunk. -/
theorem quiet (h : w.Undisturbed c) (hs : Quiet w w') : w'.Undisturbed c := by
  cases hs with
  | fill hf => exact h.fill hf
  | light hc hl => exact h.light hc hl
  | mesh _ hb => exact h.relive hb.toRelived hb.was hb.installed.lightDirty hb.installed.fresh

/-- Drawing disturbs no chunk. -/
theorem draw (h : w.Undisturbed c) (hd : Drawn w w') : w'.Undisturbed c := by
  cases hd with
  | idle => exact h
  | shown hc hshown hr => exact h.relive hr hc hshown.lightDirty hshown.fresh

end Undisturbed

/-- Runs that spare a chunk leave it undisturbed. -/
theorem performAll_undisturbed (h : w₀.Pristine)
    (hcalls : ∀ call ∈ calls, call.Spares w₀.dims c) (hrun : w₀.performAll calls = .ok w) :
    w.Undisturbed c := by
  have hall : Ensures True (w₀.performAll calls) fun w =>
      Ample True (fun _ => True) w ∧ SameRules w₀ w ∧ w.Undisturbed c := by
    refine performAll_rule (Ample.of_pristine h)
      (fun call hcall => (hcalls call hcall).streams.around) (fun _ _ hs hw => hw.quiet hs) ?_
      (fun _ _ _ hd hw => hw.draw hd) h.undisturbed
    intro p id w₁ w' hmem hrules hp he hw
    refine hw.edit hp ?_ he
    rw [hrules.dims]
    exact (hcalls _ hmem).2.2
  exact (hall.of_eq_ok hrun).2.2

end VoxelWorld.World
