import VoxelWorld.Proofs.Light.Refresh
import VoxelWorld.Proofs.World.Fresh
import VoxelWorld.Proofs.World.Reload
import VoxelWorld.Proofs.World.Seams
import VoxelWorld.Proofs.World.SkyLight

/-!
# Proofs.World.Columns — refreshing a column that was not edited

* While the world grows, light would flow out of new chunks and of those around them only
  (`Sunny.fill`), and relighting a chunk settles it. So if all of these are relit in the end,
  nothing is hot any more (`executeAll_sunny`).
* Then going down a column changes nothing, unless its top cell covers the sky, lets light in, and
  is not nearly as bright as the sky (`refresh_of_unedited_column`).
* `glass_roof_brightens` is a world of the other kind.
-/

namespace VoxelWorld

open Light (Sunlit SkyThrough Swept TopLit OpenIn)

/-- The second coordinate is the first one or one of the eight around it. -/
def ChunkCoord.Touches (c c' : ChunkCoord) : Prop :=
  c' = c ∨ ∃ o ∈ neighborOffsets, c' = c.beside o

namespace World

variable {w w' w₀ : World} {c : ChunkCoord} {p q : Pos} {command : Command}
  {commands : List Command} {Late : ChunkCoord → Prop}

/-! ## Growing -/

/-- No block is placed and no light is set by hand, and no chunk is let go. -/
def Command.Grows : Command → Prop
  | .generate _ => True
  | .process _ => True
  | .relight _ => True
  | _ => False

/-- Whenever a chunk is generated, it and the generated chunks around it are relit later on. -/
def RelitLater (w₀ : World) (commands : List Command) : Prop :=
  ∀ pre command rest u v, commands = pre ++ command :: rest → w₀.executeAll pre = .ok u →
    u.execute command = .ok v → ∀ c c', v.Generated c → ¬ u.Generated c → v.Generated c' →
      c.Touches c' → .relight c' ∈ rest

/-- A filled chunk covers the sky over none of the others. -/
theorem Filled.openToSky_iff (hf : Filled w w' c) (hd : w.dims.Valid)
    (hp : InChunks w.dims w.Generated p) (hpc : ¬ InChunks w.dims (· = c) p) :
    w'.field.OpenToSky w.registry w.dims.height p ↔
      w.field.OpenToSky w.registry w.dims.height p := by
  have hsky := hf.skylight_eq hd hp hpc
  rw [hf.registry, hf.dims] at hsky
  rw [← LightField.skylight_eq_maxLight, hsky, LightField.skylight_eq_maxLight]

/-- Light would flow out of the new chunk, and out of chunks around it into the new one. -/
theorem Sunny.fill (hs : w.Sunny fun a => Late (a.home w.dims)) (h : w.Sound)
    (hthrough : SkyThrough w.registry) (hf : Filled w w' c)
    (hlate : ∀ c', w'.Generated c' → c.Touches c' → Late c') :
    w'.Sunny fun a => Late (a.home w'.dims) := by
  have hd := h.valid
  unfold Sunny
  rw [hf.registry]
  refine ⟨⟨fun q hq hC => hf.stopped hd hthrough hs.stopped hq hC, ?_⟩, ?_, ?_, ?_⟩
  · intro a b ha hC hsteep
    rw [hf.dims]
    have hgen : w'.Generated (a.home w.dims) := by
      rw [← hf.dims]
      exact ((inChunks_iff hf.sound.valid).1 ha).1
    rcases hf.inChunks ha with hac | ⟨hac, ha'⟩
    · exact hlate _ hgen (.inl ((inChunks_iff hd).1 hac).1)
    by_cases hbc : InChunks w.dims (· = c) b
    · refine hlate _ hgen ?_
      rw [← ((inChunks_iff hd).1 hbc).1]
      exact home_of_sees hd (sees_of_adjacent hd hsteep.1.symm)
    · -- both cells were there before
      have hasame := hf.sameAt hac hd
      have hbsame := hf.sameAt hbc hd
      refine hs.steep a b ha' ((hasame.conducts _).1 hC)
        ⟨hsteep.1, (hbsame.conducts _).1 hsteep.2.1, ?_⟩
      rw [← hasame.level, ← hbsame.level]
      exact hsteep.2.2
  · intro q hq hy
    rw [hf.sound.dark hq, if_neg (by omega)]
  · -- in the new chunk the open cells have all light, in the others as before
    intro q hq
    rcases hf.inChunks hq.1 with hqc | ⟨hqc, hq'⟩
    · have hopen := hq.2
      rw [hf.dims] at hopen
      rw [hf.skyLight q hqc, LightField.skylight_of_open hopen]
    · rw [(hf.sameAt hqc hd).level]
      refine hs.bright q ⟨hq', (hf.openToSky_iff hd hq' hqc).1 ?_⟩
      rw [← hf.dims]
      exact hq.2
  · intro q hq hpos
    unfold OpenIn
    rw [hf.dims]
    rcases hf.inChunks hq with hqc | ⟨hqc, hq'⟩
    · -- all light of the new chunk comes from the sky
      left
      rw [hf.dims] at hq
      refine ⟨hq, ?_⟩
      by_contra hcov
      rw [hf.skyLight q hqc, LightField.skylight_of_covered hcov] at hpos
      exact absurd hpos (lt_irrefl 0)
    · have hsame := hf.sameAt hqc hd
      rw [hsame.level] at hpos
      rcases hs.supported q hq' hpos with hopen | ⟨hC, n, hadj, hn, hlt⟩
      · rw [hf.dims] at hq
        exact .inl ⟨hq, (hf.openToSky_iff hd hq' hqc).2 hopen.2⟩
      · have hnc : ¬ InChunks w.dims (· = c) n := fun hnc => hf.fresh <| by
          rw [← ((inChunks_iff hd).1 hnc).1]
          exact ((inChunks_iff hd).1 hn).1
        refine .inr ⟨(hsame.conducts _).2 hC, n, hadj,
          hn.mono fun c' hc' => hf.generated.2 (.inr hc'), ?_⟩
        rw [hsame.level, (hf.sameAt hnc hd).level]
        exact hlt

/-- The state of a chunk plays no part. -/
theorem Sunny.relive {chunk : Chunk} {life : Lifecycle}
    (hs : w.Sunny fun a => Late (a.home w.dims)) (hr : Relived w w' c chunk life)
    (hc : w.chunkAt? c = some chunk) (hfresh : life.fresh = chunk.isFresh) :
    w'.Sunny fun a => Late (a.home w'.dims) := by
  have hgen : w'.Generated = w.Generated := funext fun _ => propext (hr.generated hc hfresh)
  unfold Sunny
  rw [hr.registry, hr.field, hr.dims, hgen]
  exact hs

/-- No quiet step disturbs sky light, if what it generates is relit later. -/
theorem Sunny.quiet (hs : w.Sunny fun a => Late (a.home w.dims)) (h : w.Sound)
    (hthrough : SkyThrough w.registry) (hquiet : Quiet w w')
    (hlate : ∀ c c', w'.Generated c → ¬ w.Generated c → w'.Generated c' → c.Touches c' → Late c') :
    w'.Sunny fun a => Late (a.home w'.dims) := by
  cases hquiet with
  | fill hf =>
    exact hs.fill h hthrough hf fun c' => hlate _ c' (hf.generated.2 (.inl rfl)) hf.fresh
  | light _ hl =>
    rw [hl.dims]
    exact hl.sunlit h hs fun a hhot => .inl hhot
  | mesh _ hb => exact hs.relive hb.toRelived hb.was hb.installed.fresh

/-- What was generated on the way counts as new. -/
theorem Sunny.quiets (hs : w.Sunny fun a => Late (a.home w.dims)) (h : w.Sound)
    (hthrough : SkyThrough w.registry) (hquiets : Quiets w w')
    (hlate : ∀ c c', w'.Generated c → ¬ w.Generated c → w'.Generated c' → c.Touches c' → Late c') :
    w'.Sunny fun a => Late (a.home w'.dims) := by
  induction hquiets with
  | refl => exact hs
  | @tail u v hsteps hstep ih =>
    have hrules : SameRules w u := Quiets.rules hsteps h
    have hgrows := hstep.step.rules.generated
    have hu := ih fun c c' hc hno hc' => hlate c c' (hgrows c hc) hno (hgrows c' hc')
    refine hu.quiet hrules.sound ?_ hstep fun c c' hc hno => hlate c c' hc fun hw => hno ?_
    · rw [hrules.registry]
      exact hthrough
    · exact hrules.generated c hw

/-! ## Runs -/

/-- A command makes only those chunks hot that are new or touch new ones, and relighting a chunk
cools it down. -/
theorem execute_sunny (Late Late' : ChunkCoord → Prop) (h : Ample True (fun _ => True) w)
    (hthrough : SkyThrough w.registry) (hgrows : command.Grows)
    (hs : w.Sunny fun a => Late (a.home w.dims))
    (hnext : ∀ c, Late c → Late' c ∨ command = .relight c) :
    Ensures True (w.execute command) fun w' => Ample True (fun _ => True) w' ∧ SameRules w w' ∧
      ((∀ c c', w'.Generated c → ¬ w.Generated c → w'.Generated c' → c.Touches c' → Late' c') →
        w'.Sunny fun a => Late' (a.home w'.dims)) := by
  have hquiets : (∀ c, command ≠ .relight c) → ∀ w', Quiets w w' →
      (∀ c c', w'.Generated c → ¬ w.Generated c → w'.Generated c' → c.Touches c' → Late' c') →
      w'.Sunny fun a => Late' (a.home w'.dims) := by
    intro hne w' hsteps hlate
    have hs' : w.Sunny fun a => Late' (a.home w.dims) :=
      hs.mono h.sound fun a _ hhot => (hnext _ hhot).resolve_right (hne _)
    exact hs'.quiets h.sound hthrough hsteps hlate
  -- generating and processing may make chunks late; relighting makes one up to date
  cases command with
  | generate c =>
    apply (generate_steps h trivial).bind
    rintro r ⟨h', hsteps, -⟩
    exact Ensures.pure ⟨h', hsteps.rules h.sound, hquiets (fun _ => nofun) _ hsteps⟩
  | process c =>
    apply (process_steps h trivial fun _ _ => trivial).bind
    rintro r ⟨h', hsteps, -⟩
    exact Ensures.pure ⟨h', hsteps.rules h.sound, hquiets (fun _ => nofun) _ hsteps⟩
  | relight c =>
    by_cases hc : w.Generated c
    · -- a cell of the relit chunk is no longer late
      apply (updateLight_ensures h.sound h.spacious hc).bind
      intro r hl
      refine Ensures.pure ⟨h.lit hl, hl.rules, fun _ => ?_⟩
      rw [hl.dims]
      refine hl.sunlit h.sound hs fun a hhot => (hnext _ hhot).imp_right fun heq => ?_
      cases heq
      rfl
    · show Ensures True (do return (← w.updateLight c).2) _
      rw [updateLight_of_not_generated hc]
      refine Ensures.pure ⟨h, SameRules.refl h.sound, fun _ => ?_⟩
      refine hs.mono h.sound fun a ha hhot => (hnext _ hhot).resolve_right fun heq => ?_
      cases heq
      exact hc ((inChunks_iff h.sound.valid).1 ha).1
  | _ => exact absurd hgrows id

/-- If all chunks are relit after they and those around them were generated, nothing is hot. -/
theorem executeAll_sunny (h : w₀.Pristine) (hthrough : SkyThrough w₀.registry)
    (hgrows : ∀ command ∈ commands, command.Grows) (hlater : w₀.RelitLater commands)
    (hrun : w₀.executeAll commands = .ok w) :
    SameRules w₀ w ∧ w.Sunny fun _ => False := by
  -- hot are the cells of the chunks that are still to be relit
  have hall : Ensures True (w₀.executeAll commands) fun w => Ample True (fun _ => True) w ∧
      SameRules w₀ w ∧ w.Sunny fun a => .relight (a.home w.dims) ∈ ([] : List Command) := by
    refine Ensures.foldlM_run (I := fun rest w => Ample True (fun _ => True) w ∧
      SameRules w₀ w ∧ w.Sunny fun a => Command.relight (a.home w.dims) ∈ rest) ?_ ?_
    · rintro pre command rest w hcommands hpre ⟨hample, hrules, hsunny⟩
      have hthrough' : SkyThrough w.registry := by
        rw [hrules.registry]
        exact hthrough
      have hcommand : command.Grows := hgrows _ (hcommands ▸ List.mem_append_cons_self)
      have hstep := execute_sunny (fun c => .relight c ∈ command :: rest)
        (fun c => .relight c ∈ rest) hample hthrough' hcommand hsunny
        fun c hc => (List.mem_cons.1 hc).symm.imp_right Eq.symm
      apply hstep.and_eq_ok.mono
      rintro w' ⟨⟨hample', hrules', hsunny'⟩, hok⟩
      exact ⟨hample', hrules.trans hrules',
        hsunny' (hlater pre command rest w w' hcommands hpre hok)⟩
    · exact ⟨Ample.of_pristine h, SameRules.refl h.sound,
        (Untouched.of_pristine h).sunlit hthrough fun q hq =>
          absurd ((inChunks_iff h.sound.valid).1 hq).1 h.not_generated⟩
  rcases hall.of_eq_ok hrun with ⟨hample, hrules, hsunny⟩
  exact ⟨hrules, hsunny.mono hample.sound fun a _ hhot => absurd hhot List.not_mem_nil⟩

/-! ## Refreshing -/

/-- Above the world there is full light. -/
theorem Sound.level_above (h : w.Sound) (hq : w.dims.height ≤ q.y) :
    w.field.level .sky q = maxLight := by
  have hout : ¬ InChunks w.dims w.Generated q := by
    intro hin
    have := (h.below hin).2
    omega
  rw [h.dark hout, if_pos hq]
  rfl

/-- What refreshing the column of a generated cell does. -/
theorem exists_refreshColumn (h : w.Sound) (hroom : ∀ c, w.Generated c → Roomy w.dims c)
    (hp : InChunks w.dims w.Generated p) :
    ∃ w', Light.refreshColumn w.registry w p.x p.z true true = .ok w' ∧ Tracked w w' ∧
      Swept w.registry w.field (InChunks w.dims w.Generated) w.dims.height p.x p.z
        (w.field.level .sky) 0 (w'.field.level .sky) := by
  have hspace := h.spacious ((inChunks_iff h.valid).1 hp).1 hroom
  have hrun : Ensures False (Light.refreshColumn w.registry w p.x p.z true true) fun w' => _ :=
    Light.refreshColumn_ensures (volumeLaws h.valid hspace) (Shows.refl (Tracked.refl h))
      fun y hy => column_inChunks h.valid hp hy
  rcases hrun.exists_ok id with ⟨w', hok, L', hshow, hswept⟩
  rw [← hshow.levels] at hswept
  exact ⟨w', hok, hshow.good, hswept⟩

/-- The light that can be read tells the levels. -/
theorem level_eq_iff_lightAt {k : LightKind} (h : w.Sound) (ht : Tracked w w') :
    (∀ q, w'.lightAt q k = w.lightAt q k) ↔ w'.field.level k = w.field.level k := by
  constructor
  · intro hread
    funext q
    by_cases hq : InChunks w.dims w.Generated q
    · have hq' : InChunks w'.dims w.Generated q := by
        rwa [ht.dims]
      have heq := hread q
      rw [lightAt_of_inChunks ht.sound.valid hq', lightAt_of_inChunks h.valid hq] at heq
      exact Except.ok.inj heq
    · have hq' : ¬ InChunks w'.dims w'.Generated q := by
        rwa [ht.dims, ht.generated_eq]
      rw [h.dark hq, ht.sound.dark hq', ht.dims]
  · intro hlevel q
    exact lightAt_congr h.valid ht.dims (congrFun hlevel q)

/-- Wherever generating, processing and relighting chunks have led from the empty world: once each
chunk has been relit after it and those around it were generated, refreshing a column changes no sky
light just if its top cell is open, or stops light, or is as bright as light from above would make
it. -/
theorem refresh_of_unedited_column (h : w₀.Pristine) (hthrough : SkyThrough w₀.registry)
    (hgrows : ∀ command ∈ commands, command.Grows) (hlater : w₀.RelitLater commands)
    (hrun : w₀.executeAll commands = .ok w) (hroom : ∀ c, w.Generated c → Roomy w.dims c)
    (hp : InChunks w.dims w.Generated p) :
    ∃ w', Light.refreshColumn w.registry w p.x p.z true true = .ok w' ∧
      ((∀ q, w'.lightAt q .sky = w.lightAt q .sky) ↔
        TopLit w.registry w.field w.dims.height p (w.field.level .sky)) := by
  rcases executeAll_sunny h hthrough hgrows hlater hrun with ⟨hrules, hsunny⟩
  have hsound := hrules.sound
  rcases exists_refreshColumn hsound hroom hp with ⟨w', hok, htracked, hswept⟩
  refine ⟨w', hok, ?_⟩
  rw [level_eq_iff_lightAt hsound htracked]
  have hbelow := hsound.below hp
  exact hsunny.swept_eq_iff hsound.accepts_iff (fun y hy => column_inChunks hsound.valid hp hy)
    (by omega) (fun q hq => hsound.level_above hq) hswept

/-! ## A lone chunk -/

/-- A chunk was generated and relit. -/
structure Lone (w₀ : World) (c : ChunkCoord) (w₁ w : World) : Prop where
  filled : Filled w₀ w₁ c
  lit : Lit w₁ w c
  generate : w₀.execute (.generate c) = .ok w₁
  relight : w₁.execute (.relight c) = .ok w

/-- A chunk for which there is room can be generated and relit. -/
theorem exists_lone {S : ChunkCoord → Prop} (h : Ample False S w₀) (hc : S c)
    (hfresh : ¬ w₀.Generated c) : ∃ w₁ w, Lone w₀ c w₁ w := by
  have hgenerate : Ensures False (w₀.generate c) fun r => w₀.Generated c ∧ r.2 = w₀ ∨ _ :=
    generate_ensures h.sound (h.storable c) (h.roomy c hc) (h.generators c hc)
  rcases hgenerate.exists_ok id with ⟨r₁, hok₁, ⟨hgen, -⟩ | hf⟩
  · exact absurd hgen hfresh
  have h₁ := h.filled hc hf
  have hrelight : Ensures False (r₁.2.updateLight c) fun r => _ :=
    updateLight_ensures h₁.sound h₁.spacious (hf.generated.2 (.inl rfl))
  rcases hrelight.exists_ok id with ⟨r, hok, hl⟩
  refine ⟨r₁.2, r.2, hf, hl, ?_, ?_⟩
  · show (do return (← w₀.generate c).2) = _
    rw [hok₁]
    rfl
  · show (do return (← r₁.2.updateLight c).2) = _
    rw [hok]
    rfl

namespace Lone

variable {w₁ : World}

/-- These are two commands one after the other. -/
theorem executeAll (h : Lone w₀ c w₁ w) : w₀.executeAll [.generate c, .relight c] = .ok w := by
  have hstart : w₀.executeAll [] = .ok w₀ := rfl
  exact executeAll_snoc (executeAll_snoc hstart h.generate) h.relight

theorem rules (h : Lone w₀ c w₁ w) : SameRules w₀ w := h.filled.rules.trans h.lit.rules

/-- In a world that was empty the chunk is the only one. -/
theorem generated (h : Lone w₀ c w₁ w) (hw : w₀.Pristine) : w.Generated = (· = c) := by
  rw [h.lit.generated]
  funext c'
  exact propext (h.filled.generated.trans (or_iff_left hw.not_generated))

/-- Nothing else is generated, and the chunk is relit at the end. -/
theorem relitLater (h : Lone w₀ c w₁ w) (hw : w₀.Pristine) :
    w₀.RelitLater [.generate c, .relight c] := by
  intro pre command rest u v hcommands hpre hexecute c₁ c' hv hu hc' _
  -- the chunk comes in with the first command, and the second one relights it
  rcases pre with _ | ⟨first, _ | ⟨second, pre⟩⟩
  · cases hcommands
    cases hpre
    rw [h.generate] at hexecute
    cases hexecute
    have heq := (h.filled.generated.1 hc').resolve_right hw.not_generated
    rw [heq]
    exact List.mem_cons_self
  · cases hcommands
    have hstart : w₀.executeAll [] = .ok w₀ := rfl
    have hfirst : w₀.executeAll [.generate c] = .ok w₁ := executeAll_snoc hstart h.generate
    cases hfirst.symm.trans hpre
    rw [h.relight] at hexecute
    cases hexecute
    rw [h.lit.generated] at hv
    exact absurd hv hu
  · cases pre <;> cases hcommands

/-- Neither generating nor relighting places a block. -/
theorem commands_grow : ∀ command ∈ [Command.generate c, .relight c], command.Grows := by
  intro command hcommand
  rcases List.mem_pair.1 hcommand with rfl | rfl
  · trivial
  · trivial

end Lone

/-- One chunk of air. -/
theorem refresh_of_unedited_column_smallest :
    ∃ w w', smallest.executeAll [.generate ⟨0, 0⟩, .relight ⟨0, 0⟩] = .ok w ∧
      Light.refreshColumn w.registry w 0 0 true true = .ok w' ∧
      ∀ q, w'.lightAt q .sky = w.lightAt q .sky := by
  have hw := smallest.pristine
  have hroomy : Roomy smallest.dims ⟨0, 0⟩ := smallest.roomy (by decide) (by decide)
  rcases exists_lone smallest.ample hroomy hw.not_generated with ⟨w₁, w, h⟩
  have hgen := h.generated hw
  have hp : InChunks w.dims w.Generated ⟨0, 0, 0⟩ := by
    rw [h.rules.dims, hgen]
    exact ⟨_, rfl, rfl⟩
  have hroom : ∀ c, w.Generated c → Roomy w.dims c := by
    intro c hc
    rw [hgen] at hc
    rw [h.rules.dims, hc]
    exact hroomy
  rcases refresh_of_unedited_column hw smallest.translucent_of_open Lone.commands_grow
    (h.relitLater hw) h.executeAll hroom hp with ⟨w', hok, hiff⟩
  -- in air no block covers the sky
  refine ⟨w, w', h.executeAll, hok, hiff.2 (.inl fun y _ hcovers => ?_)⟩
  rw [h.rules.registry] at hcovers ⊢
  rw [smallest.coversSky] at hcovers
  exact Bool.not_eq_true' _ ▸ hcovers

/-! ## A roof of glass -/

/-- A world of one-cell chunks, each filled with glass. -/
def greenhouse : World where
  config := { chunk := ⟨1, 1, 1⟩ }
  registry := Registry.empty.put ⟨1, "glass", true, false, .cube, 0⟩
  generators := GeneratorSet.empty.insert "terrain"
    (BoxFill.generator [⟨0, 0, 0, 0, 0, 0, 1, none⟩])
  files := none

namespace greenhouse

theorem pristine : greenhouse.Pristine := ⟨rfl, rfl, rfl⟩

theorem get (id : BlockId) : greenhouse.registry.get id =
    if id = 1 then ⟨1, "glass", true, false, .cube, 0⟩
    else if id = air then .ofAir else .unknown id := by
  unfold greenhouse
  rw [Registry.get_put, Registry.get_empty]

/-- Glass covers the sky and lets light through. -/
theorem glass : (greenhouse.registry.get 1).coversSky = true ∧
    greenhouse.registry.isTranslucent 1 = true := by
  have hread : ∀ r : Registry, r.isTranslucent 1 = (r.get 1).translucent := fun _ => rfl
  rw [hread, get]
  exact ⟨rfl, rfl⟩

/-- Glass covers the sky, and so does all that stops light. -/
theorem skyThrough : SkyThrough greenhouse.registry := by
  intro id hopen
  have hread : ∀ r : Registry, r.isTranslucent id = (r.get id).translucent := fun _ => rfl
  rw [get] at hopen
  rw [hread, get]
  split at hopen
  · cases hopen
  · rename_i hid
    rw [if_neg hid]
    split at hopen
    · rename_i hair
      rw [if_pos hair]
      rfl
    · cases hopen

theorem roomy : Roomy greenhouse.dims ⟨0, 0⟩ := ⟨by decide, by decide, by decide, by decide⟩

/-- No command stops at such chunks. -/
theorem ample : greenhouse.Ample False (Roomy greenhouse.dims) :=
  pristine.ample rfl (fun _ => Checked.ne_error ⟨_, rfl⟩) fun _ _ => Checked.ne_error ⟨_, rfl⟩

/-- A chunk has a single cell. -/
theorem eq_of_inChunks (hq : InChunks greenhouse.dims (· = ⟨0, 0⟩) q) : q = ⟨0, 0, 0⟩ := by
  rcases (inChunks_iff pristine.sound.valid).1 hq with ⟨hhome, hy, -⟩
  rcases q with ⟨x, y, z⟩
  have hhome : (⟨x / 1, z / 1⟩ : ChunkCoord) = ⟨0, 0⟩ := hhome
  have hy : 0 ≤ y ∧ y < 1 := hy
  rw [Int.ediv_one, Int.ediv_one] at hhome
  cases hhome
  rw [show y = 0 by omega]

section Run

variable {w₁ : World} (h : Lone greenhouse ⟨0, 0⟩ w₁ w)

include h

/-- The one cell of the chunk is generated. -/
theorem cell_inChunks : InChunks w.dims w.Generated ⟨0, 0, 0⟩ := by
  rw [h.rules.dims, h.generated pristine]
  exact ⟨_, rfl, rfl⟩

/-- There is room around all that is generated. -/
theorem generated_roomy (hc : w.Generated c) : Roomy w.dims c := by
  rw [h.generated pristine] at hc
  rw [h.rules.dims, hc]
  exact roomy

/-- The cell of the chunk is of glass. -/
theorem block_eq : w.field.block ⟨0, 0, 0⟩ = 1 := by
  have hvacant : Vacant greenhouse := ⟨pristine.valid, rfl, nofun⟩
  have hgenerate : Ensures True (greenhouse.execute (.generate ⟨0, 0⟩)) fun w =>
      w.Archived greenhouse.givenBlock :=
    (generate_keeps hvacant.archived ⟨by decide, by decide⟩).bind fun _ hr => Ensures.pure hr.1
  have hrelight : Ensures True (w₁.execute (.relight ⟨0, 0⟩)) fun w =>
      w.Archived greenhouse.givenBlock :=
    (updateLight_keeps (hgenerate.of_eq_ok h.generate)).bind fun _ hr => Ensures.pure hr.1
  have hread := (hrelight.of_eq_ok h.relight).blockAt (cell_inChunks h)
  rw [blockAt_of_inChunks h.rules.sound.valid (cell_inChunks h)] at hread
  exact Except.ok.inj hread

theorem covers : (w.registry.get (w.field.block ⟨0, 0, 0⟩)).coversSky = true := by
  rw [block_eq h, h.rules.registry]
  exact glass.1

theorem conducts : w.field.Conducts w.registry ⟨0, 0, 0⟩ := by
  refine ⟨(h.rules.sound.accepts_iff _).2 (cell_inChunks h), ?_⟩
  rw [block_eq h, h.rules.registry]
  exact glass.2

/-- Before the column is refreshed its light is as it should be. -/
theorem sunny : w.Sunny fun _ => False :=
  (executeAll_sunny pristine skyThrough Lone.commands_grow (h.relitLater pristine)
    h.executeAll).2

/-- The sky is covered, and there is no other cell from which light could come. -/
theorem dark : w.field.level .sky ⟨0, 0, 0⟩ = 0 := by
  by_contra hne
  have hin := cell_inChunks h
  rcases (sunny h).supported _ hin (Nat.pos_of_ne_zero hne) with hopen | ⟨-, n, hadj, hn, -⟩
  · have hclear := hopen.2.self (h.rules.sound.below hin).2
    exact absurd (hclear.symm.trans (covers h)) Bool.false_ne_true
  · rw [h.rules.dims, h.generated pristine] at hn
    exact hadj.ne (eq_of_inChunks hn).symm

end Run

end greenhouse

/-- The chunk is generated and relit, and its cell is dark. Then its column is refreshed, and light
comes in from above the world. -/
theorem glass_roof_brightens : greenhouse.Pristine ∧ SkyThrough greenhouse.registry ∧
    ∃ w, greenhouse.executeAll [.generate ⟨0, 0⟩, .relight ⟨0, 0⟩] = .ok w ∧
      w.lightAt ⟨0, 0, 0⟩ .sky = .ok 0 ∧
      ∃ w' v, Light.refreshColumn w.registry w 0 0 true true = .ok w' ∧
        w'.lightAt ⟨0, 0, 0⟩ .sky = .ok v ∧ 14 ≤ v := by
  rcases exists_lone greenhouse.ample greenhouse.roomy greenhouse.pristine.not_generated with
    ⟨w₁, w, h⟩
  have hsound := h.rules.sound
  have hin := greenhouse.cell_inChunks h
  have hdark := greenhouse.dark h
  have htop : ((0 : Nat) : Int) + 1 = w.dims.height := by
    rw [h.rules.dims]
    rfl
  have hlow : w.field.level .sky ⟨0, 0, 0⟩ + 1 < maxLight := by
    rw [hdark]
    decide
  rcases exists_refreshColumn hsound (fun _ => greenhouse.generated_roomy h) hin with
    ⟨w', hok, htracked, hswept⟩
  -- the light above the world comes in through the glass when the cell is asked for its neighbours
  have hlit := (greenhouse.sunny h).litFromAbove_of_swept hsound.accepts_iff
    (fun y hy => column_inChunks hsound.valid hin hy) htop (greenhouse.covers h)
    (fun q hq => hsound.level_above hq) (greenhouse.conducts h) hlow hswept le_rfl
  have hin' : InChunks w'.dims w.Generated ⟨0, 0, 0⟩ := by
    rwa [htracked.dims]
  refine ⟨greenhouse.pristine, greenhouse.skyThrough, w, h.executeAll, ?_, w', _, hok,
    lightAt_of_inChunks htracked.sound.valid hin', Nat.le_of_succ_le_succ hlit.lit⟩
  rw [lightAt_of_inChunks hsound.valid hin, hdark]

end World

end VoxelWorld
