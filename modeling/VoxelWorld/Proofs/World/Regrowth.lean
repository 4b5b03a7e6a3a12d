import VoxelWorld.Proofs.World.Undisturbed

/-!
# Proofs.World.Regrowth — a chunk that is let go and made ready again

* A world that does not save its chunks generates the chunk anew. Then the blocks are the same, and
  so is all light outside the chunk (`Regrown`). In the chunk there is just the light of its own
  columns, `ownSkyLight`, since no sky light would have flowed out of it before (`Regrown.lit`).
* `reprocessing_restores` puts this together with what is known of chunks that are saved.
  `torchlight_is_lost` shows that light which came in from a neighbour is lost with the chunk if
  chunks are not saved.
-/

namespace VoxelWorld.World

open Light (Even Under brightest carriedIn shedIn)

variable {w w' w₀ w₁ u v : World} {c c' : ChunkCoord} {chunk : Chunk} {p : Pos}
  {m : Pos → BlockId} {calls : List Call} {faulty : Prop} {S : ChunkCoord → Prop}

/-! ## Growing again -/

open Classical in
/-- The sky light of a chunk by itself: what the sky gives to a cell, or the most that the
translucent cells of the chunk pass on to it of theirs, with one level lost on each step through
such cells. -/
noncomputable def ownSkyLight (w : World) (c : ChunkCoord) (p : Pos) : Nat :=
  max (w.field.skylight w.registry w.dims.height p)
    (brightest (w.TranslucentIn (· = c))
      (fun q =>
        if w.TranslucentIn (· = c) q then w.field.skylight w.registry w.dims.height q else 0) p)

/-- Where chunks are not saved, unloading always lets the chunk go. -/
theorem unload_of_no_files (hi : w.store.Intact) (hfiles : w.files = none)
    (hc : w.chunkAt? c = some chunk) : ∃ w', w.unload c = (.ok true, w') ∧ Retired w w' c := by
  rcases retire_spec hi hc false with ⟨w', hretire, hr⟩
  refine ⟨w', ?_, hr⟩
  unfold unload unloadBy persistBy
  simp only [hc, hfiles, hretire]

namespace Retired

theorem chunkAt?_of_ne (hr : Retired w w' c) (hne : c' ≠ c) : w'.chunkAt? c' = w.chunkAt? c' := by
  rw [hr.chunkAt?, if_neg hne]

/-- All but the one are generated as before. -/
theorem generated (hr : Retired w w' c) : w'.Generated c' ↔ c' ≠ c ∧ w.Generated c' := by
  unfold Generated
  rw [hr.chunkAt?]
  split
  · rename_i heq
    simp [heq]
  · rename_i hne
    simp [hne]

/-- The world stays sound. -/
theorem sound (hr : Retired w w' c) (h : w.Sound) : w'.Sound := by
  -- every chunk that is left was there before
  have hback : ∀ c' chunk', w'.chunkAt? c' = some chunk' → w.chunkAt? c' = some chunk' := by
    intro c' chunk' hc'
    rw [hr.chunkAt?] at hc'
    split at hc'
    · cases hc'
    · exact hc'
  constructor
  · rw [hr.dims]
    exact h.valid
  · exact hr.files.trans h.files
  · exact hr.intact.toWellFormed
  · intro c' chunk' hc'
    rw [hr.dims]
    exact h.dims c' chunk' (hback c' chunk' hc')
  · intro c' chunk' hc'
    exact h.fresh c' chunk' (hback c' chunk' hc')
  · intro c' chunk' hc'
    rw [hr.dims]
    exact h.storable c' chunk' (hback c' chunk' hc')

/-- Elsewhere nothing is seen of it. -/
theorem sameAt (hr : Retired w w' c) (hd : w.dims.Valid) (hp : ¬ InChunks w.dims (· = c) p) :
    w'.field.SameAt w.field p := by
  refine sameAt_of_chunks hd hr.dims fun cell hs => ?_
  rw [hr.chunkAt?_of_ne fun heq => hp ⟨cell, hs, heq⟩]
  exact ⟨rfl, rfl, fun _ => rfl⟩

end Retired

/-- The chunk was let go and generated again, with the blocks that it had. -/
structure Regrown (w u : World) (c : ChunkCoord) : Prop where
  sound : u.Sound
  dims : u.dims = w.dims
  registry : u.registry = w.registry
  surrounded : u.Surrounded c
  dirty : ∃ chunk, u.chunkAt? c = some chunk ∧ chunk.isLightDirty = true
  accepts : u.field.accepts = w.field.accepts
  block : u.field.block = w.field.block
  level : ∀ q, ¬ InChunks w.dims (· = c) q → ∀ k, u.field.level k q = w.field.level k q
  skyLight : ∀ q, InChunks w.dims (· = c) q →
    u.field.level .sky q = w.field.skylight w.registry w.dims.height q
  blockLight : ∀ q, InChunks w.dims (· = c) q → u.field.level .block q = 0

/-- A chunk that was let go and filled again is regrown, if the passes gave it the same blocks. -/
theorem Regrown.of_filled (h : w.Sound) (hc : w.Surrounded c) (hr : Retired w w₁ c)
    (hf : Filled w₁ u c)
    (hblock : ∀ q, InChunks w.dims (· = c) q → u.field.block q = w.field.block q) :
    Regrown w u c := by
  have hd := h.valid
  have hdims := hf.dims.trans hr.dims
  have hreg := hf.registry.trans hr.registry
  have hout : ∀ q, ¬ InChunks w.dims (· = c) q → u.field.SameAt w.field q := by
    intro q hq
    have hq₁ := hq
    rw [← hr.dims] at hq₁
    exact (hf.sameAt hq₁ (hr.sound h).valid).trans (hr.sameAt hd hq)
  have hblocks : u.field.block = w.field.block := by
    funext q
    by_cases hq : InChunks w.dims (· = c) q
    · exact hblock q hq
    · exact (hout q hq).block
  have hgen : ∀ c', w.Generated c' → u.Generated c' := by
    intro c' hc'
    by_cases hne : c' = c
    · exact hf.generated.2 (.inl hne)
    · exact hf.generated.2 (.inr (hr.generated.2 ⟨hne, hc'⟩))
  refine ⟨hf.sound, hdims, hreg, ⟨hgen c hc.1, fun o ho => hgen _ (hc.2 o ho)⟩, ?_, ?_, hblocks,
    fun q hq k => (hout q hq).level k, fun q hq => ?_, fun q hq => ?_⟩
  · rcases hf.chunk with ⟨chunk, hchunk, hlife⟩
    refine ⟨chunk, hchunk, ?_⟩
    unfold Chunk.isLightDirty
    rw [hlife]
    rfl
  · funext q
    by_cases hq : InChunks w.dims (· = c) q
    · -- the chunk is generated, as it was before
      have hw : w.field.accepts q = true := (h.accepts_iff q).2 (hq.of_mem hc.1)
      have hu : u.field.accepts q = true := by
        rw [hf.sound.accepts_iff, hdims]
        exact hq.of_mem (hf.generated.2 (.inl rfl))
      rw [hw, hu]
    · exact (hout q hq).accepts
  · rw [← hr.dims] at hq
    rw [hf.skyLight q hq, hr.registry, hr.dims]
    exact LightField.skylight_congr rfl fun _ _ _ => by rw [hblocks]
  · rw [← hr.dims] at hq
    exact hf.blockLight q hq

/-- What is seen after the light of the chunk was spread once more. -/
structure Relighted (w v : World) (c : ChunkCoord) : Prop where
  dims : v.dims = w.dims
  block : v.field.block = w.field.block
  level : ∀ q, ¬ InChunks w.dims (· = c) q → ∀ k, v.field.level k q = w.field.level k q
  le : ∀ q k, v.field.level k q ≤ w.field.level k q
  skyLight : ∀ q, InChunks w.dims (· = c) q → v.field.level .sky q = w.ownSkyLight c q
  blockLight : ∀ q, InChunks w.dims (· = c) q → v.field.level .block q = 0

namespace Regrown

/-- What is carried in the chunk is its own sky light. -/
theorem carriedIn_eq (h : Regrown w u c) (hw : w.Sound) (hc : w.Generated c)
    (hp : InChunks w.dims (· = c) p) :
    carriedIn u.registry (InChunks w.dims (· = c)) u.field .sky p = w.ownSkyLight c p := by
  classical
  have hacc : ∀ q, InChunks w.dims (· = c) q → u.field.accepts q = true := by
    intro q hq
    rw [h.accepts, hw.accepts_iff]
    exact hq.of_mem hc
  have hcells : (fun q => InChunks w.dims (· = c) q ∧ u.field.Conducts u.registry q) =
      w.TranslucentIn (· = c) := by
    funext q
    unfold LightField.Conducts TranslucentIn
    rw [h.block, h.registry]
    exact propext ⟨fun hq => ⟨hq.1, hq.2.2⟩, fun hq => ⟨hq.1, hacc q hq.1, hq.2⟩⟩
  -- what the sky gives to a cell is all that a regrown chunk has to shed
  have hshed : shedIn u.registry (InChunks w.dims (· = c)) u.field .sky = fun q =>
      if w.TranslucentIn (· = c) q then w.field.skylight w.registry w.dims.height q else 0 := by
    funext q
    unfold shedIn
    by_cases hq : InChunks w.dims (· = c) q
    · refine if_congr ?_ (h.skyLight q hq) rfl
      rw [LightField.shines_sky (hacc q hq), h.block, h.registry]
      rfl
    · rw [if_neg fun hq' => hq hq'.1, if_neg fun hq' => hq hq'.1]
  unfold carriedIn ownSkyLight
  rw [hcells, hshed, h.skyLight p hp]

/-- No sky light would have flowed out of the chunk before. -/
theorem even (h : Regrown w u c) (hw : w.Undisturbed c) (hs : w.Settled c)
    (hp : InChunks w.dims (· = c) p) (hshines : u.field.Shines u.registry .sky p) :
    Even (u.field.Conducts u.registry) (w.field.level .sky) p := by
  have hC : u.field.Conducts u.registry = w.field.Conducts w.registry := by
    rw [h.registry]
    exact LightField.conducts_congr h.accepts h.block
  have hCp : u.field.Conducts u.registry p :=
    ⟨hshines.1, (LightField.shines_sky hshines.1).1 hshines⟩
  rw [hC] at hCp ⊢
  exact hw.even hs p hp hCp

/-- No cell is brighter than before. -/
theorem under (h : Regrown w u c) (hw : w.Undisturbed c) (hc : w.Generated c) :
    Under (InChunks w.dims (· = c)) (w.field.level .sky) (u.field.level .sky) where
  le q := by
    by_cases hq : InChunks w.dims (· = c) q
    · rw [h.skyLight q hq]
      exact hw.bright hc q hq
    · exact (h.level q hq .sky).le
  eq q hq := h.level q hq .sky

/-- In the chunk there is no block light to spread. -/
theorem dark (h : Regrown w u c) (hl : Lit u v c) :
    Under (InChunks w.dims (· = c)) (u.field.level .block) (v.field.level .block) := by
  rw [← h.dims]
  refine hl.relit.under .block _ (fun q hq _ b hsteep => ?_) ⟨fun _ => le_rfl, fun _ _ => rfl⟩
  have hlt := hsteep.2.2
  rw [h.dims] at hq
  rw [h.blockLight q hq] at hlt
  omega

/-- Relit, the chunk has the light that its own columns give, and no cell has more than before. -/
theorem lit (h : Regrown w u c) (hw : w.Undisturbed c) (hs : w.Settled c) (hc : w.Generated c)
    (hl : Lit u v c) : Relighted w v c := by
  have hrelit := hl.relit
  have hcalm := hl.calm
  rw [h.dims] at hrelit hcalm
  have heven : ∀ q, InChunks w.dims (· = c) q → u.field.Shines u.registry .sky q →
      Even (u.field.Conducts u.registry) (w.field.level .sky) q := fun _ => h.even hw hs
  have hsky := hrelit.under .sky _ heven (h.under hw hc)
  have hblock := h.dark hl
  have hdark : ∀ q, InChunks w.dims (· = c) q → v.field.level .block q = 0 := by
    intro q hq
    have hle := hblock.le q
    rwa [h.blockLight q hq, Nat.le_zero] at hle
  -- sky light stays under what there was before, block light stays out
  refine ⟨hl.dims.trans h.dims, hrelit.block.trans h.block, fun q hq k => ?_, fun q k => ?_,
    fun q hq => ?_, hdark⟩
  · cases k with
    | sky => exact hsky.eq q hq
    | block => rw [hblock.eq q hq, h.level q hq]
  · cases k with
    | sky => exact hsky.le q
    | block =>
      by_cases hq : InChunks w.dims (· = c) q
      · rw [hdark q hq]
        exact Nat.zero_le _
      · rw [hblock.eq q hq, h.level q hq]
  · rw [← h.carriedIn_eq hw.sound hc hq]
    exact hrelit.eq_carriedIn (h.sound.level_le .sky) (h.under hw hc) heven hcalm hq

end Regrown

/-- The light of a finished chunk was spread. -/
theorem Finished.settled (h : w.Finished c) : w.Settled c := by
  rcases h.surrounded.1 with ⟨chunk, hc, hfresh⟩
  exact ⟨chunk, hc, h.spread chunk hc hfresh⟩

/-- Where a chunk was let go, generating it gives it the blocks that it had. -/
theorem Retired.generate (hr : Retired w w₁ c) (h : w.Sound) (hsurr : w.Surrounded c)
    (harch : w.Archived m) (hfits : c.Fits)
    (hback : ∀ chunk, c.Fits → w.Brings c chunk → chunk.Agrees w.generators m)
    (hroom : Room faulty S w) (hS : S c)
    (hgen : ∀ blocks e, w.generators.runAll c w.dims blocks = .error e → faulty) :
    Ensures faulty (w₁.generate c) fun r =>
      Regrown w r.2 c ∧ SameBase w₁ r.2 ∧ r.2.Archived m ∧
        Spacious faulty r.2.dims r.2.Generated := by
  have hspace : Spacious faulty w₁.dims S := by
    rw [hr.dims]
    exact hroom.spacious
  rw [← hr.dims, ← hr.generators] at hgen
  apply Ensures.mono
    (generate_ensures (hr.sound h) (hspace.storable c) (hspace.roomy c hS) hgen).and_eq_ok
  -- the chunk is gone, so it is generated anew
  rintro ⟨own, u⟩ ⟨⟨hgenerated, -⟩ | hf, hok⟩
  · exact absurd rfl (hr.generated.1 hgenerated).1
  rcases (generate_keeps (hr.archived harch hback) hfits).of_eq_ok hok with
    ⟨harch', honward, hgenerated⟩
  simp only at hf harch' honward hgenerated
  refine ⟨Regrown.of_filled h hsurr hr hf fun q hq => ?_, honward.toSameBase, harch', ?_⟩
  · -- the map tells the blocks of both
    have hq' : InChunks w.dims w.Generated q := hq.of_mem hsurr.1
    have hqu : InChunks u.dims u.Generated q := by
      rw [hf.dims, hr.dims]
      exact hq.of_mem hgenerated
    have hread := harch.blockAt hq'
    have hreadu := harch'.blockAt hqu
    rw [blockAt_of_inChunks h.valid hq'] at hread
    rw [blockAt_of_inChunks hf.sound.valid hqu] at hreadu
    exact Except.ok.inj (hreadu.trans hread.symm)
  · rw [hf.dims]
    refine ⟨hspace.storable, fun c' hc' => hspace.roomy c' ?_⟩
    rcases hf.generated.1 hc' with rfl | hgen'
    · exact hS
    · rcases (hr.generated.1 hgen').2 with ⟨chunk, hchunk, hfresh⟩
      exact hroom.inside c' chunk (.inl hchunk) hfresh

/-- The light of a chunk that was generated again is spread, as it is dirty still. -/
theorem Regrown.settleLight (h : Regrown w u c) (hspace : Spacious faulty u.dims u.Generated) :
    Ensures faulty (u.settleLight c) fun r => Lit u r.2 c := by
  rcases h.dirty with ⟨chunk, hchunk, hdirty⟩
  unfold World.settleLight
  simp only [hchunk, hdirty, if_true]
  exact updateLight_ensures h.sound hspace h.surrounded.1

/-- Processing a chunk that was let go generates it, spreads its light and builds its mesh. -/
theorem Retired.process (hr : Retired w w₁ c) (h : w.Undisturbed c) (hfinished : w.Finished c)
    (harch : w.Archived m) (hfits : c.Fits)
    (hback : ∀ chunk, c.Fits → w.Brings c chunk → chunk.Agrees w.generators m)
    (hroom : Room faulty S w) (hS : S c)
    (hgen : ∀ blocks e, w.generators.runAll c w.dims blocks = .error e → faulty)
    (hjobs : w.workers ≠ none → ¬ Snapshot.Numbered w.dims → faulty) :
    Ensures faulty (w₁.process c) fun r => ∃ v, Relighted w v c ∧ SameCells v r.2 := by
  rw [← hr.dims] at hjobs
  refine process_of_surrounded (P := fun u => Regrown w u c ∧ u.Archived m ∧
    Spacious faulty u.dims u.Generated) ?_
    (fun hw => hjobs fun hnone => hw (hr.workers hnone)) ?_ ?_
  · rw [hr.dims]
    exact hroom.spacious.roomy c hS
  · apply (hr.generate h.sound hfinished.surrounded harch hfits hback hroom hS hgen).mono
    rintro r ⟨hregrown, hbase, harch', hspace⟩
    exact ⟨hregrown.sound.valid, hbase, hregrown.surrounded, hregrown, harch', hspace⟩
  · rintro u - ⟨hregrown, harch', hspace⟩
    apply (hregrown.settleLight hspace).and_eq_ok.mono
    rintro ⟨lit, v⟩ ⟨hl, hok⟩
    have hgrew := ((settleLight_grew (Room.anywhere harch'.valid) harch'.intact).of_eq_ok hok).1
    exact ⟨hgrew.toSameBase, hgrew.intact,
      hregrown.lit h hfinished.settled hfinished.surrounded.1 hl⟩

/-! ## Made ready again -/

/-- The second world shows the blocks and the light of the first one. Only a chunk that was not
saved may have lost light: it has that of its own columns, and no block light. -/
structure Restored (w w' : World) (c : ChunkCoord) : Prop where
  block : ∀ p, w'.blockAt p = w.blockAt p
  light : ∀ p k, w.files ≠ none ∨ ¬ InChunks w.dims (· = c) p → w'.lightAt p k = w.lightAt p k
  sky : w.files = none → ∀ p, InChunks w.dims (· = c) p →
    w'.lightAt p .sky = .ok (w.ownSkyLight c p)
  blockLight : w.files = none → ∀ p, InChunks w.dims (· = c) p → w'.lightAt p .block = .ok 0
  le : ∀ p k n n', w.lightAt p k = .ok n → w'.lightAt p k = .ok n' → n' ≤ n

/-- With a save directory all comes back as it was. -/
theorem Mirrors.restored (h : Mirrors w w') (hd : w.dims.Valid) (hfiles : w.files ≠ none) :
    Restored w w' c where
  block _ := h.blockAt
  light _ _ _ := h.lightAt hd
  sky hnone := absurd hnone hfiles
  blockLight hnone := absurd hnone hfiles
  le p k n n' hn hn' := by
    rw [h.lightAt hd, hn] at hn'
    cases hn'
    exact le_rfl

/-- Without one, the light of the chunk is its own. -/
theorem Relighted.restored (h : Relighted w v c) (hw : w.Sound) (hm : Mirrors v w') :
    Restored w w' c := by
  have hd := hw.valid
  have hdv := hd
  rw [← h.dims] at hdv
  have hread : ∀ p k, InChunks w.dims (· = c) p → w'.lightAt p k = .ok (v.field.level k p) := by
    intro p k hp
    rw [← h.dims] at hp
    rw [hm.lightAt hdv]
    exact lightAt_of_inChunks hdv hp
  -- outside the chunk light reads as before
  have hout : ∀ p k, ¬ InChunks w.dims (· = c) p → w'.lightAt p k = w.lightAt p k := by
    intro p k hp
    rw [hm.lightAt hdv]
    exact lightAt_congr hd h.dims (h.level p hp k)
  refine ⟨fun p => ?_, fun p k hp => ?_, fun _ p hp => ?_, fun _ p hp => ?_,
    fun p k n n' hn hn' => ?_⟩
  · rw [hm.blockAt]
    exact blockAt_congr hd h.dims (congrFun h.block p)
  · exact hout p k (hp.resolve_left fun hne => hne hw.files)
  · rw [hread p .sky hp, h.skyLight p hp]
  · rw [hread p .block hp, h.blockLight p hp]
  · -- in the chunk light may have been lost, elsewhere it is the same
    by_cases hp : InChunks w.dims (· = c) p
    · rw [hread p k hp] at hn'
      rw [lightAt_of_inChunks hd hp] at hn
      cases hn
      cases hn'
      exact h.le p k
    · rw [hout p k hp, hn] at hn'
      cases hn'
      exact le_rfl

/-- A chunk that is brought in once more has the blocks that it had. -/
theorem Spared.back (h : Spared w₀ c w) (hd : w₀.dims.Valid)
    (hm : ∀ p, InChunks w₀.dims (· = c) p → m p = w₀.givenBlock p) (hfits : c.Fits)
    (hbrings : w.Brings c chunk) : chunk.Agrees w.generators m := by
  have hbrings₀ := h.brings.1 hbrings
  rcases hbrings₀.spec with ⟨hcoord, hdims, -⟩
  rw [h.generators]
  refine (hbrings₀.agrees hd).congr fun x y z hin => hm _ ((inChunks_iff hd).2 ?_)
  have hhome := Chunk.home_place (by rw [hdims]; exact hd) hin
  rw [hdims, hcoord] at hhome
  refine ⟨hhome, ⟨hin.2.1, ?_⟩, ?_⟩
  · rw [← hdims]
    exact hin.2.2.2.2.1
  · show ChunkCoord.Fits ((chunk.place x y z).home w₀.dims)
    rw [hhome]
    exact hfits

/-- What a run has made ready can be let go and made ready again. -/
theorem exists_unload (h : w₀.Vacant) (hcalls : ∀ call ∈ calls, call.Spares w₀.dims c)
    (hmem : .process c ∈ calls) (hrun : w₀.performAll calls = .ok w) :
    ∃ w₁, w.unload c = (.ok true, w₁) ∧ ∀ faulty S, Room faulty S w → S c →
      (∀ blocks e, w.generators.runAll c w.dims blocks = .error e → faulty) →
      (w.workers ≠ none → ¬ Snapshot.Numbered w.dims → faulty) →
      Ensures faulty (w₁.process c) fun r => Restored w r.2 c := by
  rcases performAll_spared h hcalls hmem hrun with ⟨hspared, hfinished⟩
  rcases hspared.archived with ⟨m, harch, hm⟩
  have hfits : c.Fits := hcalls _ hmem
  rcases hfinished.surrounded.1 with ⟨chunk, hc, hfresh⟩
  -- with files the chunk comes back from the disk, without them from the passes
  cases hfiles : w.files with
  | some f =>
    have hserviced : Serviced f w := by
      refine ⟨hfiles, ?_⟩
      rw [hspared.disk]
      exact h.serves f (hspared.files.symm.trans hfiles)
    rcases unload_released hserviced harch hc hfresh with ⟨w₁, hunload, hreleased⟩
    refine ⟨w₁, hunload, fun faulty S hroom hS _ hjobs => ?_⟩
    apply (hreleased.process harch.valid hc hfinished hroom.spacious.storable
      (hroom.spacious.roomy c hS) hjobs).mono
    intro r hmirrors
    refine hmirrors.restored harch.valid ?_
    rw [hfiles]
    nofun
  | none =>
    have hundisturbed : w.Undisturbed c :=
      performAll_undisturbed (h.pristine (hspared.files.symm.trans hfiles)) hcalls hrun
    rcases unload_of_no_files harch.intact hfiles hc with ⟨w₁, hunload, hr⟩
    refine ⟨w₁, hunload, fun faulty S hroom hS hgen hjobs => ?_⟩
    apply (hr.process hundisturbed hfinished harch hfits
      (fun _ hfits hbrings => hspared.back h.valid_dims hm hfits hbrings) hroom hS hgen
      hjobs).mono
    rintro r ⟨v, hrelighted, hcells⟩
    exact hrelighted.restored hundisturbed.sound hcells.mirrors

/-- Wherever processing chunks and placing blocks in others has led from a world without chunks: a
chunk that was processed can be unloaded and processed again, where there is room and, with builders
at work, where the cells of a copy have numbers. If chunks are saved then all shows the same as
before. If they are not, then the generators fill the chunk with the blocks they gave it before, for
these follow from its coordinate, its sides and what it holds. So all blocks are the same, and the
light of all other chunks, and the chunk has the light of its own columns, which is nowhere brighter
than before. -/
theorem reprocessing_restores (h : w₀.Vacant) (hcalls : ∀ call ∈ calls, call.Spares w₀.dims c)
    (hmem : .process c ∈ calls) (hrun : w₀.performAll calls = .ok w) :
    ∃ w₁, w.unload c = (.ok true, w₁) ∧
      (w.HasRoom c → (w.workers ≠ none → Snapshot.Numbered w.dims) →
        ∃ r, w₁.process c = .ok r) ∧
      ∀ r, w₁.process c = .ok r → Restored w r.2 c := by
  rcases exists_unload h hcalls hmem hrun with ⟨w₁, hunload, hprocess⟩
  have hd : w.dims.Valid := by
    rw [(performAll_spared h hcalls hmem hrun).1.dims]
    exact h.valid_dims
  refine ⟨w₁, hunload, fun hspace hnumbered => ?_, fun r hok => ?_⟩
  · have hrun₁ : Ensures (¬ w.HasRoom c) (w₁.process c) fun r => Restored w r.2 c :=
      hprocess _ _ (HasRoom.room hd) HasRoom.own (fun _ _ => HasRoom.of_runAll)
        fun hworkers hno => absurd (hnumbered hworkers) hno
    rcases hrun₁.exists_ok (not_not_intro hspace) with ⟨r, hok, -⟩
    exact ⟨r, hok⟩
  · -- a run that may stop anywhere
    have hrun₁ : Ensures True (w₁.process c) fun r => Restored w r.2 c :=
      hprocess _ _ (Room.anywhere hd) trivial (fun _ _ _ => trivial) fun _ _ => trivial
    exact hrun₁.of_eq_ok hok

/-! ## A torch next to the chunk -/

/-- Without saved chunks only those that are there can be generated already. -/
theorem Ample.room (h : Ample faulty S w) (hfiles : w.files = none) : Room faulty S w where
  valid := h.sound.valid
  spacious := ⟨h.storable, h.roomy⟩
  inside c chunk ho hfresh := by
    rcases ho with hc | ⟨-, -, hsaved | ⟨-, hnew⟩⟩
    · exact h.inside c ⟨chunk, hc, hfresh⟩
    · rw [saved?_of_no_files hfiles] at hsaved
      cases hsaved
    · rw [(Chunk.new_spec hnew).2.2.isFresh] at hfresh
      cases hfresh

namespace smallest

/-- The chunk at the origin and the eight around it. -/
def nine : List ChunkCoord := ⟨0, 0⟩ :: neighborOffsets.map (ChunkCoord.beside ⟨0, 0⟩)

/-- The nine chunks are processed, and a torch is placed in the one to the east. -/
def torchRun : List Call := nine.map .process ++ [.edit ⟨1, 0, 0⟩ 1]

theorem vacant : Vacant smallest := ⟨pristine.valid, rfl, nofun⟩

theorem nine_near : ∀ c ∈ nine, (-1 ≤ c.x ∧ c.x ≤ 1) ∧ (-1 ≤ c.z ∧ c.z ≤ 1) := by decide

/-- Processing them spares every chunk, and stays where there is room. -/
theorem nine_calls (c : ChunkCoord) : ∀ call ∈ nine.map Call.process,
    call.Spares smallest.dims c ∧ call.Around False smallest.dims (Roomy smallest.dims) := by
  intro call hcall
  rcases List.mem_map.1 hcall with ⟨c', hc', rfl⟩
  rcases nine_near c' hc' with ⟨hx, hz⟩
  refine ⟨⟨⟨by omega, by omega⟩, by omega, by omega⟩, roomy (by omega) (by omega), fun o ho => ?_⟩
  rcases neighborOffsets_le ho with ⟨hox, hoz⟩
  refine roomy ?_ ?_
  · show -9 ≤ c'.x + o.1 ∧ c'.x + o.1 ≤ 9
    omega
  · show -9 ≤ c'.z + o.2 ∧ c'.z + o.2 ≤ 9
    omega

/-- The torch is placed next to the chunk at the origin, not in it. -/
theorem torchRun_spares : ∀ call ∈ torchRun, call.Spares smallest.dims ⟨0, 0⟩ := by
  intro call hcall
  rcases List.mem_append.1 hcall with hcall | hcall
  · exact (nine_calls _ call hcall).1
  · rw [List.mem_singleton.1 hcall]
    refine ⟨by decide, by decide, ?_⟩
    rintro ⟨cell, hs, heq⟩
    cases hs
    cases heq

theorem mem_torchRun : .process ⟨0, 0⟩ ∈ torchRun :=
  List.mem_append_left _ (List.mem_map_of_mem (List.mem_cons_self ..))

/-- Light enters air. -/
theorem air_translucent : smallest.registry.isTranslucent air = true := by
  apply translucent_of_open
  rw [get]
  rfl

/-- All nine are there, and full of air. -/
theorem exists_nine : ∃ w, smallest.performAll (nine.map .process) = .ok w ∧
    Ample False (Roomy smallest.dims) w ∧ SameRules smallest w ∧
    ∀ c ∈ nine, ∀ p, InChunks smallest.dims (· = c) p → smallest.givenBlock p = air →
      InChunks w.dims w.Generated p ∧ w.field.block p = air := by
  have hrun : Ensures False (smallest.performAll (nine.map .process)) fun w =>
      Ample False (Roomy smallest.dims) w ∧ SameRules smallest w ∧ True :=
    performAll_induct ample (fun call hcall => (nine_calls ⟨0, 0⟩ call hcall).2)
      (fun _ _ _ _ => trivial) (fun _ _ _ _ _ => trivial) trivial
  rcases hrun.exists_ok id with ⟨w, hok, hample, hrules, -⟩
  refine ⟨w, hok, hample, hrules, fun c hc p hp hgiven => ?_⟩
  rcases performAll_spared vacant (fun call hcall => (nine_calls c call hcall).1)
    (List.mem_map_of_mem hc) hok with ⟨hspared, hfinished⟩
  have hin : InChunks w.dims w.Generated p := by
    rw [hspared.dims]
    exact hp.of_mem hfinished.surrounded.1
  rcases hspared.archived with ⟨m, harch, hm⟩
  have hread := harch.blockAt hin
  rw [blockAt_of_inChunks harch.valid hin, hm p hp, hgiven] at hread
  exact ⟨hin, Except.ok.inj hread⟩

/-- The torch shines into the chunk at the origin. -/
theorem exists_torchRun : ∃ w, smallest.performAll torchRun = .ok w ∧
    Ample False (Roomy smallest.dims) w ∧
    w.blockAt ⟨1, 0, 0⟩ = .ok 1 ∧ w.lightAt ⟨1, 0, 0⟩ .block = .ok 14 ∧
    ∃ n, 13 ≤ n ∧ w.lightAt ⟨0, 0, 0⟩ .block = .ok n := by
  rcases exists_nine with ⟨w₁, hrun₁, hample₁, hrules₁, hair⟩
  rcases hair ⟨0, 0⟩ (by decide) ⟨0, 0, 0⟩ ⟨_, rfl, rfl⟩ rfl with ⟨hcell, hblock⟩
  rcases hair ⟨1, 0⟩ (by decide) ⟨1, 0, 0⟩ ⟨_, rfl, rfl⟩ rfl with ⟨htorch, hblock'⟩
  have hedit : Ensures False (w₁.setBlock ⟨1, 0, 0⟩ 1) _ :=
    edit_ensures hample₁.sound
      (fun c hc => not_not.1 fun hno => hample₁.roomy c (hample₁.inside c hc) hno) htorch
  rcases hedit.and_eq_ok.exists_ok id with ⟨⟨changed, w⟩, -, ⟨hsame, -⟩ | ⟨-, he⟩, hok⟩
  · rw [hblock'] at hsame
    cases hsame
  have hlum : w₁.registry.luminance 1 = 14 := by
    rw [hrules₁.registry, luminance]
    rfl
  have hpos : 0 < w₁.registry.luminance 1 := by
    rw [hlum]
    decide
  -- the torch shines into the next cell, which lies in the chunk at the origin
  have hbeside : 14 ≤ w.field.level .block ⟨0, 0, 0⟩ + 1 := by
    have hadj : Light.Adjacent ⟨1, 0, 0⟩ ⟨0, 0, 0⟩ := ⟨(-1, 0, 0), by decide, rfl⟩
    have hC : w₁.field.Conducts w₁.registry ⟨0, 0, 0⟩ := by
      refine ⟨(hample₁.sound.accepts_iff _).2 hcell, ?_⟩
      rw [hblock, hrules₁.registry]
      exact air_translucent
    have hle := he.le_level_beside hpos hadj hC
    rwa [hlum] at hle
  have hframed := he.tracked.toFramed
  have hd := hframed.sound.valid
  have hread : ∀ p, InChunks w₁.dims w₁.Generated p → InChunks w.dims w.Generated p := by
    intro p hp
    rw [hframed.dims]
    exact hp.mono fun c hc => hframed.generated.2 hc
  refine ⟨w, performAll_snoc hrun₁ (perform_edit hok), hample₁.edited he, ?_, ?_,
    w.field.level .block ⟨0, 0, 0⟩, by omega, ?_⟩
  · rw [blockAt_of_inChunks hd (hread _ htorch), he.block_self]
  · rw [lightAt_of_inChunks hd (hread _ htorch), he.level_self hpos, hlum]
    rfl
  · rw [lightAt_of_inChunks hd (hread _ hcell)]

end smallest

/-- The torch has its light when the chunk is there again. -/
theorem reprocessing_restores_smallest : ∃ w w₁ r,
    smallest.performAll smallest.torchRun = .ok w ∧ w.unload ⟨0, 0⟩ = (.ok true, w₁) ∧
      w₁.process ⟨0, 0⟩ = .ok r ∧ r.2.blockAt ⟨1, 0, 0⟩ = .ok 1 ∧
      r.2.lightAt ⟨1, 0, 0⟩ .block = .ok 14 := by
  rcases smallest.exists_torchRun with ⟨w, hrun, hample, hblock, hlight, -⟩
  rcases performAll_spared smallest.vacant smallest.torchRun_spares smallest.mem_torchRun hrun with
    ⟨hspared, -⟩
  rcases reprocessing_restores smallest.vacant smallest.torchRun_spares smallest.mem_torchRun hrun
    with ⟨w₁, hunload, htotal, hrestored⟩
  -- the run has shown that there is room for the chunk
  have hroom : w.HasRoom ⟨0, 0⟩ := by
    have hoffers := (hample.room hspared.files).inside
    constructor
    · rw [hspared.dims]
      exact fun _ => ⟨_, rfl⟩
    · rw [hspared.generators, hspared.dims]
      exact fun blocks => ⟨blocks, rfl⟩
    · rw [hspared.dims]
      exact smallest.roomy (by decide) (by decide)
    · rw [hspared.dims]
      exact hoffers
  rcases htotal hroom (absurd (hspared.workers rfl)) with ⟨r, hok⟩
  refine ⟨w, w₁, r, hrun, hunload, hok, ?_, ?_⟩
  · rw [(hrestored r hok).block, hblock]
  · rw [(hrestored r hok).light, hlight]
    right
    rw [hspared.dims]
    rintro ⟨cell, hs, heq⟩
    cases hs
    cases heq

/-- The light of the torch does not come back into the chunk. -/
theorem torchlight_is_lost : ∃ w w₁ r,
    smallest.performAll smallest.torchRun = .ok w ∧ w.unload ⟨0, 0⟩ = (.ok true, w₁) ∧
      w₁.process ⟨0, 0⟩ = .ok r ∧
      (∃ n, 13 ≤ n ∧ w.lightAt ⟨0, 0, 0⟩ .block = .ok n) ∧
      r.2.lightAt ⟨0, 0, 0⟩ .block = .ok 0 := by
  rcases smallest.exists_torchRun with ⟨w, hrun, hample, -, -, hlit⟩
  rcases performAll_spared smallest.vacant smallest.torchRun_spares smallest.mem_torchRun hrun with
    ⟨hspared, -⟩
  rcases exists_unload smallest.vacant smallest.torchRun_spares smallest.mem_torchRun hrun with
    ⟨w₁, hunload, hprocess⟩
  have hfiles : w.files = none := hspared.files
  have hroomy : Roomy smallest.dims ⟨0, 0⟩ := smallest.roomy (by decide) (by decide)
  have hrun₁ : Ensures False (w₁.process ⟨0, 0⟩) fun r => Restored w r.2 ⟨0, 0⟩ :=
    hprocess _ _ (hample.room hfiles) hroomy (hample.generators _ hroomy)
      fun hworkers _ => hample.workers hworkers
  rcases hrun₁.exists_ok id with ⟨r, hok, hrestored⟩
  refine ⟨w, w₁, r, hrun, hunload, hok, hlit, hrestored.blockLight hfiles _ ?_⟩
  rw [hspared.dims]
  exact ⟨_, rfl, rfl⟩

end VoxelWorld.World
