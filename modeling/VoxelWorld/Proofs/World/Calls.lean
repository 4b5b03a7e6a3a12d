import VoxelWorld.Proofs.Registry
import VoxelWorld.Proofs.World.Edit
import VoxelWorld.Proofs.World.Relight

/-!
# Proofs.World.Calls — runs of calls

* `Call` are the operations of a world that may be called in any order, and `performAll` is a
  run of them.
* `Pristine` is the world that runs start from. `generateAll` generates some chunks of it, and
  then the world is `Untouched`: its light is what the generated columns get from the sky.
  `smallest` is a world in which no generation stops.
* `performAll_ensures` is the rule for runs that relight chunks and edit the generated ones:
  no call stops, and what the single calls keep holds in the end.
-/

namespace VoxelWorld

/-- The operations that may be called in any order. -/
inductive Call
  | relight (c : ChunkCoord)
  | edit (p : Pos) (id : BlockId)
  | process (c : ChunkCoord)
  | upload (c : ChunkCoord)
  | swap (c : ChunkCoord)
  | draw (pass : Pass) (c : ChunkCoord)

/-- Relighting any chunk, and edits of the cells of some chunks. -/
def Call.Within (d : Dims) (R : ChunkCoord → Prop) : Call → Prop
  | relight _ => True
  | edit p _ => InChunks d R p
  | _ => False

namespace World

variable {w w' w₀ w₁ : World} {c : ChunkCoord} {p : Pos} {id : BlockId} {R : List ChunkCoord}
  {call : Call} {calls : List Call}

def perform (w : World) : Call → Checked World
  | .relight c => do
    let (_, w) ← w.updateLight c
    return w
  | .edit p id => do
    let (_, w) ← w.setBlock p id
    return w
  | .process c => do
    let (_, w) ← w.process c
    return w
  | .upload c => return w.generateBuffers c
  | .swap c => return (w.update c).2
  | .draw pass c => return w.render pass c

def performAll (w : World) (calls : List Call) : Checked World := calls.foldlM perform w

/-- An edit that goes through, as a call. -/
theorem perform_edit {r : Bool × World} (h : w.setBlock p id = .ok r) :
    w.perform (.edit p id) = .ok r.2 := by
  show (do
    let (_, w') ← w.setBlock p id
    return w') = Except.ok r.2
  rw [h]
  rfl

/-- One more call at the end of a run. -/
theorem performAll_snoc (h : w₁.performAll calls = .ok w) (hcall : w.perform call = .ok w') :
    w₁.performAll (calls ++ [call]) = .ok w' := Checked.foldlM_snoc h hcall

/-- Generates the chunks of a list. -/
def generateAll (w : World) (R : List ChunkCoord) : Checked World :=
  R.foldlM (fun w c => do
    let (_, w) ← w.generate c
    return w) w

/-!
## Where runs start

A run starts from a world without chunks. Where a result speaks of cells, the configuration of that
world was let through by `WorldConfig.validate`, as the program does with every configuration before
it makes a world of it: with an empty side there are no cells, and a side past the largest
coordinate is another number as a coordinate, so that positions do not lie where their chunks are.

1. `Pristine` worlds have no save directory, so that all chunks are made anew.
2. `Unsaved` worlds have one, with no chunk in it yet.
3. `Vacant` worlds may have one with any chunks in it.

A world can also be made of a configuration that was not let through. Results that do not need more
than they ask for are said of all worlds: `fresh_chunks_blank`, `process_reaches_fixpoint` and
`unload_loses_no_chunk` have no condition on the sides, and `generateMesh_workers` only that the
snapshot at hand fits, since there an empty side makes a difference.
-/

/-- A world without chunks and without save directory, of a configuration that was let through. -/
structure Pristine (w : World) : Prop where
  valid : w.config.validate = .ok ()
  files : w.files = none
  store : w.store = .empty

namespace Pristine

theorem sound (h : w.Pristine) : w.Sound := Sound.of_empty h.valid h.files h.store

theorem chunkAt? (h : w.Pristine) : w.chunkAt? c = none := by
  unfold World.chunkAt?
  rw [h.store]
  exact ChunkStore.getAt?_empty

/-- In a pristine world no chunk is generated. -/
theorem not_generated (h : w.Pristine) : ¬ w.Generated c := by
  intro hgen
  rcases hgen with ⟨chunk, hc, -⟩
  rw [h.chunkAt?] at hc
  cases hc

end Pristine

/-- The light of all generated chunks is what their columns get from the sky. -/
structure Untouched (w : World) : Prop where
  sound : w.Sound
  skyLight : ∀ p, InChunks w.dims w.Generated p →
    w.field.level .sky p = w.field.skylight w.registry w.dims.height p
  blockLight : ∀ p, InChunks w.dims w.Generated p → w.field.level .block p = 0

namespace Untouched

/-- In a pristine world no light has been touched. -/
theorem of_pristine (h : w.Pristine) : w.Untouched := by
  refine ⟨h.sound, ?_, ?_⟩
  all_goals
    intro p hp
    rcases hp with ⟨cell, -, hgen⟩
    exact absurd hgen h.not_generated

/-- Columns belong to one chunk, so filling another one does not touch them. -/
theorem filled (h : w.Untouched) (hf : Filled w w' c) : w'.Untouched := by
  have hd := h.sound.valid
  have hdims := hf.dims
  refine ⟨hf.sound, ?_, ?_⟩
  · intro p hp
    rcases hf.inChunks hp with hpc | ⟨hpc, hp'⟩
    · rw [hf.registry, hdims]
      exact hf.skyLight p hpc
    · rw [(hf.sameAt hpc hd).level, h.skyLight p hp', hf.skylight_eq hd hp' hpc]
  · intro p hp
    rcases hf.inChunks hp with hpc | ⟨hpc, hp'⟩
    · exact hf.blockLight p hpc
    · rw [(hf.sameAt hpc hd).level]
      exact h.blockLight p hp'

end Untouched

/-- What a run keeps: all but the blocks and the light of the generated chunks. -/
structure SameGround (w₁ w : World) : Prop where
  sound : w.Sound
  dims : w.dims = w₁.dims
  registry : w.registry = w₁.registry
  generated : w.Generated = w₁.Generated

namespace SameGround

theorem refl (h : w.Sound) : SameGround w w := ⟨h, rfl, rfl, rfl⟩

theorem roomy (h : SameGround w₁ w) (hroom : ∀ c, w₁.Generated c → Roomy w₁.dims c) :
    ∀ c, w.Generated c → Roomy w.dims c := by
  intro c hc
  rw [h.generated] at hc
  rw [h.dims]
  exact hroom c hc

/-- Relighting is part of a run. -/
theorem lit (h : SameGround w₁ w) (hl : Lit w w' c) : SameGround w₁ w' where
  sound := hl.sound
  dims := hl.dims.trans h.dims
  registry := hl.registry.trans h.registry
  generated := hl.generated.trans h.generated

/-- An edit is part of a run, and the run stays on its ground. -/
theorem edited (h : SameGround w₁ w) (he : Edited w w' p id) : SameGround w₁ w' where
  sound := he.tracked.sound
  dims := he.tracked.dims.trans h.dims
  registry := he.tracked.registry.trans h.registry
  generated := he.tracked.generated_eq.trans h.generated

end SameGround

/-- Some chunks of the empty world `w₀` were generated, and nothing else was done. -/
structure Laid (w₀ w : World) : Prop where
  untouched : w.Untouched
  dims : w.dims = w₀.dims
  registry : w.registry = w₀.registry
  generators : w.generators = w₀.generators
  block : ∀ Q : BlockId → Prop, Q air → w₀.generators.Keeps Q →
    ∀ p, InChunks w.dims w.Generated p → Q (w.field.block p)

/-- At first nothing was generated. -/
theorem Laid.of_pristine (h : w₀.Pristine) : Laid w₀ w₀ where
  untouched := Untouched.of_pristine h
  dims := rfl
  registry := rfl
  generators := rfl
  block Q _ _ p hp := by
    rcases hp with ⟨cell, -, hgen⟩
    exact absurd hgen h.not_generated

/-- One more chunk may be. -/
theorem Laid.filled (h : Laid w₀ w) (hf : Filled w w' c) : Laid w₀ w' where
  untouched := h.untouched.filled hf
  dims := hf.dims.trans h.dims
  registry := hf.registry.trans h.registry
  generators := by
    rw [hf.rest]
    exact h.generators
  block Q hair hkeeps p hp := by
    rcases hf.inChunks hp with hpc | ⟨hpc, hp'⟩
    · rw [← h.generators] at hkeeps
      exact hf.block Q hair hkeeps p hpc
    · rw [(hf.sameAt hpc h.untouched.sound.valid).block]
      exact h.block Q hair hkeeps p hp'

variable {faulty : Prop}

/-- Generating chunks of a world without any. -/
theorem generateAll_ensures (h : w₀.Pristine)
    (hnew : ∀ c e, Chunk.new c w₀.dims = .error e → faulty)
    (hroom : ∀ c ∈ R, ¬ Roomy w₀.dims c → faulty)
    (hgen : ∀ c ∈ R, ∀ blocks e, w₀.generators.runAll c w₀.dims blocks = .error e → faulty) :
    Ensures faulty (w₀.generateAll R) fun w => Laid w₀ w ∧ w.Generated = (· ∈ R) := by
  -- a generated chunk stays generated, and no chunk is generated that was not asked for
  refine (Ensures.foldlM_all (G := fun w => Laid w₀ w ∧ ∀ c, w.Generated c → c ∈ R)
    (T := fun u v => ∀ c, u.Generated c → v.Generated c) (P := fun c w => w.Generated c)
    (fun _ _ hg => hg) (fun _ _ _ huv hvw c hg => hvw c (huv c hg))
    (fun c u v hT hg => hT c hg) (fun c w hc hw => ?_)
    ⟨Laid.of_pristine h, fun c hg => absurd hg h.not_generated⟩).mono ?_
  · rcases hw with ⟨hlaid, hsub⟩
    have hstep : Ensures faulty (w.generate c) fun r =>
        w.Generated c ∧ r.2 = w ∨ Filled w r.2 c := by
      apply generate_ensures hlaid.untouched.sound
      · rw [hlaid.dims]
        exact hnew c
      · rw [hlaid.dims]
        exact hroom c hc
      · rw [hlaid.dims, hlaid.generators]
        exact hgen c hc
    apply hstep.bind
    intro r hr
    apply Ensures.pure
    -- the chunk was there, because the list names it twice, or it is filled now
    rcases hr with ⟨hg, heq⟩ | hfilled
    · rw [heq]
      exact ⟨⟨hlaid, hsub⟩, fun _ hg' => hg', hg⟩
    · refine ⟨⟨hlaid.filled hfilled, fun c' hg => ?_⟩, fun c' hg => ?_, ?_⟩
      · rcases hfilled.generated.1 hg with heq | hg'
        · rw [heq]
          exact hc
        · exact hsub c' hg'
      · exact hfilled.generated.2 (.inr hg)
      · exact hfilled.generated.2 (.inl rfl)
  · intro w hw
    rcases hw with ⟨⟨hlaid, hsub⟩, -, hall⟩
    exact ⟨hlaid, funext fun c => propext ⟨hsub c, hall c⟩⟩

/-- What is known once the chunks were generated. -/
theorem laid_of_generateAll (h : w₀.Pristine) (hok : w₀.generateAll R = .ok w₁) :
    Laid w₀ w₁ ∧ w₁.Generated = (· ∈ R) := by
  have hrun : Ensures True (w₀.generateAll R) fun w => Laid w₀ w ∧ w.Generated = (· ∈ R) :=
    generateAll_ensures h (fun _ _ _ => trivial) (fun _ _ _ => trivial) fun _ _ _ _ _ => trivial
  exact hrun.of_eq_ok hok

/-- Without generators all new chunks are of air. -/
theorem exists_generateAll_of_air (h : w₀.Pristine) (hgens : w₀.generators = .empty)
    (hnew : ∀ c e, Chunk.new c w₀.dims ≠ .error e) (hroom : ∀ c ∈ R, Roomy w₀.dims c) :
    ∃ w, w₀.generateAll R = .ok w ∧ ∀ p, InChunks w₀.dims (· ∈ R) p → w.field.block p = air := by
  have hrunAll : ∀ c d (blocks : BlockArray d), w₀.generators.runAll c d blocks = .ok blocks := by
    intro c d blocks
    rw [hgens]
    rfl
  have hrun : Ensures False (w₀.generateAll R) fun w => Laid w₀ w ∧ w.Generated = (· ∈ R) := by
    apply generateAll_ensures h
    · exact hnew
    · intro c hc hno
      exact hno (hroom c hc)
    · intro c _ blocks e he
      rw [hrunAll] at he
      cases he
  rcases hrun.exists_ok id with ⟨w, hok, hlaid, hgen⟩
  refine ⟨w, hok, fun p hp => ?_⟩
  rw [← hlaid.dims, ← hgen] at hp
  -- passes that do nothing keep any set of blocks that air is in
  refine hlaid.block (· = air) rfl (fun c d blocks blocks' hair hok => ?_) p hp
  rw [hrunAll] at hok
  cases hok
  exact hair

/-- A world of torches and air whose chunks have two cells, one above the other. -/
def smallest : World where
  config := { chunk := ⟨1, 2, 1⟩ }
  registry := Registry.empty.put ⟨1, "torch", true, false, .billboard, 14⟩
  generators := .empty
  files := none

namespace smallest

theorem pristine : smallest.Pristine := ⟨rfl, rfl, rfl⟩

theorem get (id : BlockId) : smallest.registry.get id =
    if id = 1 then ⟨1, "torch", true, false, .billboard, 14⟩
    else if id = air then .ofAir else .unknown id := by
  unfold smallest
  rw [Registry.get_put, Registry.get_empty]

/-- Torches and air let light through, and everything else covers the sky. -/
theorem coversSky (id : BlockId) :
    (smallest.registry.get id).coversSky = !smallest.registry.isTranslucent id := by
  have hread : ∀ r : Registry, r.isTranslucent id = (r.get id).translucent := fun _ => rfl
  rw [hread, get]
  by_cases h1 : id = 1
  · rw [if_pos h1]
    rfl
  · rw [if_neg h1]
    split <;> rfl

theorem translucent_of_open (id : BlockId) (h : (smallest.registry.get id).coversSky = false) :
    smallest.registry.isTranslucent id = true := by
  rw [coversSky] at h
  exact Bool.not_eq_false' _ ▸ h

theorem luminance (id : BlockId) : smallest.registry.luminance id = if id = 1 then 14 else 0 := by
  have hread : ∀ r : Registry, r.luminance id = (r.get id).luminance := fun _ => rfl
  rw [hread, get]
  by_cases h1 : id = 1
  · rw [if_pos h1, if_pos h1]
  · rw [if_neg h1, if_neg h1]
    split <;> rfl

theorem luminance_of_pos {id : BlockId} (h : 0 < smallest.registry.luminance id) :
    smallest.registry.luminance id = 14 := by
  rw [luminance] at h ⊢
  split at h
  · rename_i hid
    exact if_pos hid
  · exact absurd h (lt_irrefl 0)

/-- There is room around the origin. -/
theorem roomy (hx : -9 ≤ c.x ∧ c.x ≤ 9) (hz : -9 ≤ c.z ∧ c.z ≤ 9) : Roomy smallest.dims c := by
  have hside : smallest.dims.width = 1 ∧ smallest.dims.depth = 1 := by decide
  rcases hside with ⟨hw, hd⟩
  constructor
  · rw [hw]
    exact ⟨by omega, by omega⟩
  · rw [hw]
    exact ⟨by omega, by omega⟩
  · rw [hd]
    exact ⟨by omega, by omega⟩
  · rw [hd]
    exact ⟨by omega, by omega⟩

theorem storable (c : ChunkCoord) (e : Fault) : Chunk.new c smallest.dims ≠ .error e :=
  Checked.ne_error ⟨_, rfl⟩ e

theorem exists_generateAll (hroom : ∀ c ∈ R, Roomy smallest.dims c) :
    ∃ w, smallest.generateAll R = .ok w ∧
      ∀ p, InChunks smallest.dims (· ∈ R) p → w.field.block p = air :=
  exists_generateAll_of_air pristine rfl storable hroom

end smallest

/-! ## Runs that stay within the generated chunks -/

/-- Where one chunk is generated, all can be made. -/
theorem Sound.spacious (h : w.Sound) (hc : w.Generated c)
    (hroom : ∀ c, w.Generated c → Roomy w.dims c) : Spacious False w.dims w.Generated where
  storable c' e he := by
    rcases hc with ⟨chunk, hchunk, -⟩
    rcases h.storable c chunk hchunk with ⟨new, hnew⟩
    exact absurd he (Checked.ne_error (Chunk.new_isOk hnew) e)
  roomy c' hgen hno := hno (hroom c' hgen)

/-- A call to relight does so if the chunk is generated, and is idle otherwise. -/
theorem relight_ensures (h : w.Sound) (hroom : ∀ c, w.Generated c → Roomy w.dims c) :
    Ensures False (w.perform (.relight c)) fun w' =>
      ¬ w.Generated c ∧ w' = w ∨ Lit w w' c := by
  show Ensures False (do
    let (_, w') ← w.updateLight c
    return w') _
  by_cases hc : w.Generated c
  · exact (updateLight_ensures h (h.spacious hc hroom) hc).bind fun r hr =>
      Ensures.pure (.inr hr)
  · rw [updateLight_of_not_generated hc]
    exact Ensures.ok (.inl ⟨hc, rfl⟩)

/-- An edit does nothing if the block is there already. -/
theorem edit_ensures (h : w.Sound) (hroom : ∀ c, w.Generated c → Roomy w.dims c)
    (hp : InChunks w.dims w.Generated p) :
    Ensures False (w.setBlock p id) fun r =>
      w.field.block p = id ∧ r.2 = w ∨ r.1 = true ∧ Edited w r.2 p id := by
  rcases hp with ⟨cell, hs, hgen⟩
  have hcell : ∀ cell', p.split w.dims = .ok (some cell') → cell' = cell := by
    intro cell' hs'
    rw [hs] at hs'
    cases hs'
    rfl
  -- the chunk is generated already, so the world is the same when the block is placed
  refine setBlock_ensures (P := (· = w)) ?_ ?_ ?_ ?_ ?_
  · intro e he
    rw [hs] at he
    cases he
  · intro hnone
    rw [hs] at hnone
    cases hnone
  · intro cell' hs'
    rw [hcell cell' hs', generate_of_generated hgen]
    exact Ensures.ok ⟨rfl, hgen⟩
  · intro cell' w₁ chunk hs' hw₁ hc _ hsame
    rw [hw₁] at hc
    exact .inl ⟨block_of_same h hs' hc hsame, hw₁⟩
  · intro cell' w₁ chunk hs' hw₁ hc hfresh _
    rw [hw₁] at hc ⊢
    exact (afterEdit_ensures h (h.spacious hgen hroom) hs' hc hfresh).mono fun w' hw' =>
      .inr ⟨rfl, hw'⟩

/-- The rule for runs: the invariant `I` may speak of the calls that are still to come. -/
theorem performAll_ensures (h : w₁.Sound) (hroom : ∀ c, w₁.Generated c → Roomy w₁.dims c)
    (hin : ∀ call ∈ calls, call.Within w₁.dims w₁.Generated) {I : List Call → World → Prop}
    (hstart : I calls w₁)
    (hidle : ∀ call rest w, SameGround w₁ w → (∀ c, call = .relight c → ¬ w.Generated c) →
      I (call :: rest) w → I rest w)
    (hlit : ∀ c rest w w', SameGround w₁ w → Lit w w' c → I (.relight c :: rest) w → I rest w')
    (hedit : ∀ pre p id rest w w', calls = pre ++ .edit p id :: rest →
      w₁.performAll pre = .ok w → w.setBlock p id = .ok (true, w') → SameGround w₁ w →
      InChunks w.dims w.Generated p → Edited w w' p id → I (.edit p id :: rest) w → I rest w') :
    ∃ w, w₁.performAll calls = .ok w ∧ SameGround w₁ w ∧ I [] w := by
  have hrun : Ensures False (w₁.performAll calls) fun w => SameGround w₁ w ∧ I [] w := by
    refine Ensures.foldlM_run (I := fun rest w => SameGround w₁ w ∧ I rest w) ?_
      ⟨SameGround.refl h, hstart⟩
    rintro pre call rest w hcalls hpre ⟨hground, hI⟩
    have hroom' := hground.roomy hroom
    have hcall : call.Within w₁.dims w₁.Generated := hin _ (hcalls ▸ List.mem_append_cons_self)
    cases call with
    | relight c =>
      apply (relight_ensures hground.sound hroom').mono
      rintro w' (⟨hgen, heq⟩ | hl)
      · rw [heq]
        refine ⟨hground, hidle _ rest w hground ?_ hI⟩
        intro c' hc'
        cases hc'
        exact hgen
      · exact ⟨hground.lit hl, hlit c rest w w' hground hl hI⟩
    | edit p id =>
      have hp : InChunks w.dims w.Generated p := by
        rw [hground.dims, hground.generated]
        exact hcall
      -- an edit is idle where the block is there already
      apply ((edit_ensures hground.sound hroom' hp).and_eq_ok).bind
      rintro ⟨did, w'⟩ ⟨⟨-, heq⟩ | ⟨hdid, hed⟩, hok⟩
      · simp only at heq
        rw [heq]
        exact Ensures.pure ⟨hground, hidle _ rest w hground (fun c hc => by cases hc) hI⟩
      · simp only at hdid hed
        rw [hdid] at hok
        exact Ensures.pure ⟨hground.edited hed,
          hedit pre p id rest w w' hcalls hpre hok hground hp hed hI⟩
    | process c => exact absurd hcall id
    | upload c => exact absurd hcall id
    | swap c => exact absurd hcall id
    | draw pass c => exact absurd hcall id
  exact hrun.exists_ok id

end World

end VoxelWorld
