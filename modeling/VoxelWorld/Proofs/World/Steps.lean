import Mathlib.Logic.Relation
import VoxelWorld.Proofs.World.Calls
import VoxelWorld.Proofs.World.Meshing

/-!
# Proofs.World.Steps — calls as runs of steps

* `Step` are the things that happen to a world while it streams in: a chunk is filled, a block
  is placed, or a chunk whose neighbours are all there is relit or gets its mesh. `Quiet` are
  those among them that place no block.
* `Ample` says that nothing stops, unless `faulty` holds. It is kept along the way.
* `perform_ensures` says what a call comes to: quiet steps, after which a block may be placed, or
  the drawing of a chunk. `performAll_rule` and `performAll_induct` are the rules for runs.
-/

namespace VoxelWorld

/-- All calls but relighting by hand. -/
def Call.Streams : Call → Prop
  | relight _ => False
  | _ => True

/-- The call stays within some chunks, unless `faulty` holds. -/
def Call.Around (faulty : Prop) (d : Dims) (S : ChunkCoord → Prop) : Call → Prop
  | relight _ => False
  | edit p _ => (∀ e, p.split d = .error e → faulty) ∧
      ∀ cell, p.split d = .ok (some cell) → S cell.chunk
  | process c => S c ∧ ∀ o ∈ neighborOffsets, S (c.beside o)
  | _ => True

/-- Where any stop is excused, a call need not stay anywhere. -/
theorem Call.Streams.around {d : Dims} {call : Call} (h : call.Streams) :
    call.Around True d fun _ => True := by
  cases call with
  | relight c => exact h
  | edit p id => exact ⟨fun _ _ => trivial, fun _ _ => trivial⟩
  | process c => exact ⟨trivial, fun _ _ => trivial⟩
  | upload c => trivial
  | swap c => trivial
  | draw pass c => trivial

namespace World

variable {w w' w'' : World} {c : ChunkCoord} {p : Pos} {id : BlockId} {faulty : Prop}
  {S : ChunkCoord → Prop} {call : Call} {calls : List Call}

/-! ## What stays -/

/-- No chunk has been disposed of. -/
def Live (w : World) : Prop := ∀ c chunk, w.chunkAt? c = some chunk → chunk.isDisposed = false

/-- What no step and no drawing changes. -/
structure SameRules (w w' : World) : Prop where
  dims : w'.dims = w.dims
  registry : w'.registry = w.registry
  generators : w'.generators = w.generators
  workers : w.workers = none → w'.workers = none
  sound : w'.Sound
  live : w.Live → w'.Live
  generated : ∀ c, w.Generated c → w'.Generated c

namespace SameRules

theorem refl (h : w.Sound) : SameRules w w := ⟨rfl, rfl, rfl, id, h, id, fun _ hc => hc⟩

theorem trans (h : SameRules w w') (h' : SameRules w' w'') : SameRules w w'' where
  dims := h'.dims.trans h.dims
  registry := h'.registry.trans h.registry
  generators := h'.generators.trans h.generators
  workers hw := h'.workers (h.workers hw)
  sound := h'.sound
  live hw := h'.live (h.live hw)
  generated c hc := h'.generated c (h.generated c hc)

end SameRules

/-- A filled chunk is live and generated, and the others are untouched. -/
theorem Filled.rules (h : Filled w w' c) : SameRules w w' := by
  refine ⟨h.dims, h.registry, ?_, ?_, h.sound, fun hlive c' chunk' hc' => ?_,
    fun c' hc' => h.generated.2 (.inr hc')⟩
  · rw [h.rest]
  · rw [h.rest]
    exact fun hw => hw
  · by_cases hne : c' = c
    · rcases h.chunk with ⟨chunk, hchunk, hlife⟩
      rw [hne, hchunk] at hc'
      cases hc'
      unfold Chunk.isDisposed
      rw [hlife]
      rfl
    · rw [h.other c' hne] at hc'
      exact hlive c' chunk' hc'

/-- Writing blocks or light disposes of no chunk. -/
theorem Framed.rules (h : Framed w w') : SameRules w w' := by
  refine ⟨h.dims, h.registry, ?_, ?_, h.sound, fun hlive c' chunk' hc' => ?_,
    fun c hc => h.generated.2 hc⟩
  · rw [h.rest]
  · rw [h.rest]
    exact fun hw => hw
  · unfold Chunk.isDisposed
    rcases h.back hc' with ⟨chunk, hc, hk⟩ | ⟨-, hblank⟩
    · rw [hk.life]
      exact hlive c' chunk hc
    · rw [hblank.life]
      rfl

/-- Another state breaks the rules only by making a chunk fresh or disposing of it. -/
theorem Relived.rules {chunk : Chunk} {life : Lifecycle} (h : Relived w w' c chunk life)
    (hc : w.chunkAt? c = some chunk) (hfresh : life.fresh = chunk.isFresh)
    (hdisposed : chunk.isDisposed = false → life.isDisposed = false) : SameRules w w' := by
  refine ⟨h.dims, h.registry, h.generators, h.workers, h.sound, fun hlive c' chunk' hc' => ?_,
    fun _ hc' => (h.generated hc hfresh).2 hc'⟩
  by_cases hne : c' = c
  · rw [hne, h.self] at hc'
    cases hc'
    exact hdisposed (hlive c chunk hc)
  · rw [h.other c' hne] at hc'
    exact hlive c' chunk' hc'

/-- Relighting keeps them. -/
theorem Lit.rules (h : Lit w w' c) : SameRules w w' := by
  rcases h.tracked with ⟨w₁, chunk, htracked, hchunk, hrelived⟩
  exact htracked.toFramed.rules.trans (hrelived.rules hchunk rfl id)

/-- A built mesh keeps the rules; it is not for disposed chunks. -/
theorem Built.rules {chunk : Chunk} {life : Lifecycle} {g : MeshGeometry}
    (h : Built w w' c chunk life g) : SameRules w w' :=
  h.toRelived.rules h.was h.installed.fresh fun _ => h.installed.live

/-- Drawing keeps the rules. -/
theorem Drawn.rules (h : Drawn w w') (hw : w.Sound) : SameRules w w' := by
  cases h with
  | idle => exact SameRules.refl hw
  | shown hc hshown hrelived =>
    exact hrelived.rules hc hshown.fresh fun hlive => hshown.disposed.trans hlive

/-! ## Steps -/

/-- The chunk and the eight around it are generated. -/
def Surrounded (w : World) (c : ChunkCoord) : Prop :=
  w.Generated c ∧ ∀ o ∈ neighborOffsets, w.Generated (c.beside o)

/-- Generated chunks stay, so what is surrounded stays surrounded. -/
theorem SameRules.surrounded (h : SameRules w w') (hc : w.Surrounded c) : w'.Surrounded c :=
  ⟨h.generated c hc.1, fun o ho => h.generated _ (hc.2 o ho)⟩

/-- A chunk whose neighbours are all there does not see another one come in. -/
theorem Filled.unseen {c' : ChunkCoord} (h : Filled w w' c) (hd : w.dims.Valid)
    (hc : w.Surrounded c') (hsees : Sees w.dims c' p) : ¬ InChunks w.dims (· = c) p := by
  intro hin
  have hhome : p.home w.dims = c := ((inChunks_iff hd).1 hin).1
  apply h.fresh
  rw [← hhome]
  rcases home_of_sees hd hsees with heq | ⟨o, ho, heq⟩
  · rw [heq]
    exact hc.1
  · rw [heq]
    exact hc.2 o ho

/-- What happens to a world while it streams in. -/
inductive Step (w : World) : World → Prop
  | fill {c : ChunkCoord} {w' : World} : Filled w w' c → Step w w'
  | edit {p : Pos} {id : BlockId} {w' : World} :
      InChunks w.dims w.Generated p → Edited w w' p id → Step w w'
  | light {c : ChunkCoord} {w' : World} : w.Surrounded c → Lit w w' c → Step w w'
  | mesh {c : ChunkCoord} {chunk : Chunk} {life : Lifecycle} {g : MeshGeometry} {w' : World} :
      w.Surrounded c → Built w w' c chunk life g → Step w w'

/-- Every step keeps the rules. -/
theorem Step.rules (h : Step w w') : SameRules w w' := by
  cases h with
  | fill hfilled => exact hfilled.rules
  | edit _ hedited => exact hedited.tracked.toFramed.rules
  | light _ hlit => exact hlit.rules
  | mesh _ hbuilt => exact hbuilt.rules

/-- What happens while no block is placed. -/
inductive Quiet (w : World) : World → Prop
  | fill {c : ChunkCoord} {w' : World} : Filled w w' c → Quiet w w'
  | light {c : ChunkCoord} {w' : World} : w.Surrounded c → Lit w w' c → Quiet w w'
  | mesh {c : ChunkCoord} {chunk : Chunk} {life : Lifecycle} {g : MeshGeometry} {w' : World} :
      w.Surrounded c → Built w w' c chunk life g → Quiet w w'

theorem Quiet.step (h : Quiet w w') : Step w w' := by
  cases h with
  | fill hfilled => exact .fill hfilled
  | light hc hlit => exact .light hc hlit
  | mesh hc hbuilt => exact .mesh hc hbuilt

/-- Any number of such steps. -/
def Quiets : World → World → Prop := Relation.ReflTransGen Quiet

namespace Quiets

theorem refl : Quiets w w := Relation.ReflTransGen.refl

theorem single (h : Quiet w w') : Quiets w w' := Relation.ReflTransGen.single h

theorem trans (h : Quiets w w') (h' : Quiets w' w'') : Quiets w w'' :=
  Relation.ReflTransGen.trans h h'

/-- What each step keeps, any number of them keeps. -/
theorem induct {I : World → Prop} (h : Quiets w w') (hstep : ∀ w w', Quiet w w' → I w → I w')
    (hI : I w) : I w' := by
  induction h with
  | refl => exact hI
  | tail _ hs ih => exact hstep _ _ hs ih

/-- Quiet steps leave chunks generated. -/
theorem generated (h : Quiets w w') (hc : w.Generated c) : w'.Generated c :=
  h.induct (I := fun w => w.Generated c) (fun _ _ hs hgen => hs.step.rules.generated c hgen) hc

theorem rules (h : Quiets w w') (hw : w.Sound) : SameRules w w' := by
  refine h.induct (I := SameRules w) ?_ (SameRules.refl hw)
  intro w₁ w₂ hs hrules
  exact hrules.trans hs.step.rules

end Quiets

/-! ## Where nothing stops -/

/-- Within the chunks `S`, and with meshes built in place, nothing stops unless `faulty`
holds. -/
structure Ample (faulty : Prop) (S : ChunkCoord → Prop) (w : World) : Prop where
  sound : w.Sound
  live : w.Live
  storable : ∀ c e, Chunk.new c w.dims = .error e → faulty
  roomy : ∀ c, S c → ¬ Roomy w.dims c → faulty
  generators : ∀ c, S c → ∀ blocks e, w.generators.runAll c w.dims blocks = .error e → faulty
  workers : w.workers ≠ none → faulty
  inside : ∀ c, w.Generated c → S c

/-- If all chunks can be made and filled, then nothing stops as long as there is room. -/
theorem Pristine.ample (h : w.Pristine) (hworkers : w.workers = none)
    (hnew : ∀ c e, Chunk.new c w.dims ≠ .error e)
    (hgen : ∀ c blocks e, w.generators.runAll c w.dims blocks ≠ .error e) :
    Ample False (Roomy w.dims) w where
  sound := h.sound
  live c chunk hc := by
    rw [h.chunkAt?] at hc
    cases hc
  storable := hnew
  roomy c hr hno := hno hr
  generators c _ := hgen c
  workers hw := hw hworkers
  inside c hc := absurd hc h.not_generated

namespace Ample

/-- A run that may stop anywhere. -/
theorem of_pristine (h : w.Pristine) : Ample True (fun _ => True) w := by
  refine ⟨h.sound, fun c chunk hc => ?_, fun _ _ _ => trivial, fun _ _ _ => trivial,
    fun _ _ _ _ _ => trivial, fun _ => trivial, fun _ _ => trivial⟩
  rw [h.chunkAt?] at hc
  cases hc

theorem spacious (h : Ample faulty S w) : Spacious faulty w.dims w.Generated :=
  ⟨h.storable, fun c hc => h.roomy c (h.inside c hc)⟩

/-- A world stays ample as long as no chunk outside `S` is generated. -/
theorem next (h : Ample faulty S w) (hrules : SameRules w w')
    (hinside : ∀ c, w'.Generated c → S c) : Ample faulty S w' where
  sound := hrules.sound
  live := hrules.live h.live
  storable := by
    rw [hrules.dims]
    exact h.storable
  roomy := by
    rw [hrules.dims]
    exact h.roomy
  generators := by
    rw [hrules.generators, hrules.dims]
    exact h.generators
  workers hw := by
    refine h.workers fun hnone => hw ?_
    exact hrules.workers hnone
  inside := hinside

/-- A chunk of `S` may be filled. -/
theorem filled (h : Ample faulty S w) (hc : S c) (hf : Filled w w' c) : Ample faulty S w' := by
  refine h.next hf.rules fun c' hc' => ?_
  rcases hf.generated.1 hc' with heq | hgen
  · rw [heq]
    exact hc
  · exact h.inside c' hgen

/-- Edits generate no chunks. -/
theorem edited (h : Ample faulty S w) (he : Edited w w' p id) : Ample faulty S w' :=
  h.next he.tracked.toFramed.rules fun c hc => h.inside c (he.tracked.generated.1 hc)

/-- Relighting keeps the room of a world. -/
theorem lit (h : Ample faulty S w) (hl : Lit w w' c) : Ample faulty S w' := by
  refine h.next hl.rules fun c' hc' => h.inside c' ?_
  rw [← hl.generated]
  exact hc'

/-- Built meshes keep the room of a world. -/
theorem built {chunk : Chunk} {life : Lifecycle} {g : MeshGeometry} (h : Ample faulty S w)
    (hb : Built w w' c chunk life g) : Ample faulty S w' :=
  h.next hb.rules fun c' hc' => h.inside c' ((hb.generated hb.was hb.installed.fresh).1 hc')

/-- Drawing keeps the room of a world. -/
theorem drawn (h : Ample faulty S w) (hd : Drawn w w') : Ample faulty S w' := by
  refine h.next (hd.rules h.sound) fun c' hc' => h.inside c' ?_
  cases hd with
  | idle => exact hc'
  | shown hc hshown hrelived => exact (hrelived.generated hc hshown.fresh).1 hc'

end Ample

/-! ## Calls -/

/-- Generating a chunk is one quiet step, or none if it was generated before. -/
theorem generate_steps (h : Ample faulty S w) (hc : S c) : Ensures faulty (w.generate c) fun r =>
    Ample faulty S r.2 ∧ Quiets w r.2 ∧ r.2.Generated c := by
  apply (generate_ensures h.sound (h.storable c) (h.roomy c hc) (h.generators c hc)).mono
  intro r hr
  rcases hr with ⟨hgen, heq⟩ | hfilled
  · rw [heq]
    exact ⟨h, Quiets.refl, hgen⟩
  · exact ⟨h.filled hc hfilled, Quiets.single (.fill hfilled), hfilled.generated.2 (.inl rfl)⟩

/-- Generating the eight chunks around is quiet steps. -/
theorem generateNeighbors_steps (h : Ample faulty S w) (hc : S c)
    (hS : ∀ o ∈ neighborOffsets, S (c.beside o)) :
    Ensures faulty (w.generateNeighbors c) fun r => Ample faulty S r.2 ∧ Quiets w r.2 ∧
      ∀ o ∈ neighborOffsets, r.2.Generated (c.beside o) := by
  unfold generateNeighbors
  -- each neighbour is generated in its turn and stays so
  refine Ensures.foldlM_all (s := (false, w)) (G := fun s : Bool × World => Ample faulty S s.2)
    (T := fun s t => Quiets s.2 t.2) (P := fun o s => s.2.Generated (c.beside o))
    (fun s => Quiets.refl) (fun s t u hst htu => hst.trans htu)
    (fun o s t hst hgen => hst.generated hgen) ?_ h
  intro o s ho hs
  rcases s with ⟨worked, w₁⟩
  rcases o with ⟨dx, dz⟩
  apply (offset_ensures hs.sound.valid (hs.roomy c hc) ho).bind_eq
  apply (generate_steps hs (hS _ ho)).bind
  intro r hr
  exact Ensures.pure hr

/-- The light is spread if it is dirty, and is clean afterwards. -/
theorem settleLight_steps (h : Ample faulty S w) (hc : w.Surrounded c) :
    Ensures faulty (w.settleLight c) fun r => Ample faulty S r.2 ∧ Quiets w r.2 ∧
      ∃ chunk, r.2.chunkAt? c = some chunk ∧ chunk.isLightDirty = false := by
  rcases hc.1 with ⟨chunk, hchunk, -⟩
  unfold settleLight
  rw [hchunk]
  refine Ensures.ite (fun _ => ?_) fun hclean => ?_
  · apply (updateLight_ensures h.sound h.spacious hc.1).mono
    intro r hlit
    rcases hlit.tracked with ⟨w₁, chunk₁, -, -, hrelived⟩
    exact ⟨h.lit hlit, Quiets.single (.light hc hlit), _, hrelived.self, rfl⟩
  · exact Ensures.pure ⟨h, Quiets.refl, chunk, hchunk, Bool.not_eq_true _ ▸ hclean⟩

/-- The light of the chunk was spread and its mesh was built. -/
def Ready (w : World) (c : ChunkCoord) : Prop :=
  ∃ chunk, w.chunkAt? c = some chunk ∧ chunk.isLightDirty = false ∧ chunk.isDirty = false

/-- The mesh of a chunk with clean light is built if it is dirty. -/
theorem settleMesh_steps (h : Ample faulty S w) (hc : w.Surrounded c) {chunk : Chunk}
    (hchunk : w.chunkAt? c = some chunk) (hlight : chunk.isLightDirty = false) :
    Ensures faulty (w.settleMesh c) fun r => Ample faulty S r.2 ∧ Quiets w r.2 ∧ r.2.Ready c := by
  have hfresh : chunk.isFresh = false := hc.1.isFresh hchunk
  unfold settleMesh
  simp only [hchunk, hlight, hfresh, Bool.not_false, Bool.and_true]
  refine Ensures.ite (fun _ => ?_) fun hclean => ?_
  · refine (generateMesh_ensures h.sound (h.roomy c (h.inside c hc.1)) h.workers hchunk hfresh
      (h.live c chunk hchunk)).mono ?_
    intro r hr
    rcases hr with ⟨life, g, hbuilt⟩
    exact ⟨h.built hbuilt, Quiets.single (.mesh hc hbuilt), _, hbuilt.self,
      hbuilt.installed.lightDirty.trans hlight, hbuilt.installed.dirty⟩
  · exact Ensures.pure ⟨h, Quiets.refl, chunk, hchunk, hlight, Bool.not_eq_true _ ▸ hclean⟩

/-- Processing a chunk makes it ready. -/
theorem process_steps (h : Ample faulty S w) (hc : S c)
    (hS : ∀ o ∈ neighborOffsets, S (c.beside o)) :
    Ensures faulty (w.process c) fun r => Ample faulty S r.2 ∧ Quiets w r.2 ∧ r.2.Ready c := by
  unfold process
  apply (generate_steps h hc).bind
  intro r₁ hr₁
  rcases r₁ with ⟨own, w₁⟩
  rcases hr₁ with ⟨h₁, hsteps₁, hgen⟩
  apply (generateNeighbors_steps h₁ hc hS).bind
  intro r₂ hr₂
  rcases r₂ with ⟨around, w₂⟩
  rcases hr₂ with ⟨h₂, hsteps₂, haround⟩
  -- from here on the chunk and its neighbours are all there
  have hsurr₂ : w₂.Surrounded c := ⟨hsteps₂.generated hgen, haround⟩
  apply (settleLight_steps h₂ hsurr₂).bind
  intro r₃ hr₃
  rcases r₃ with ⟨lit, w₃⟩
  rcases hr₃ with ⟨h₃, hsteps₃, chunk, hchunk, hlight⟩
  have hsurr₃ : w₃.Surrounded c := (hsteps₃.rules h₂.sound).surrounded hsurr₂
  apply (settleMesh_steps h₃ hsurr₃ hchunk hlight).bind
  intro r₄ hr₄
  rcases r₄ with ⟨meshed, w₄⟩
  rcases hr₄ with ⟨h₄, hsteps₄, hready⟩
  exact Ensures.pure ⟨h₄, hsteps₁.trans (hsteps₂.trans (hsteps₃.trans hsteps₄)), hready⟩

/-- Placing a block may generate its chunk first; then there is an edit, or nothing to do. -/
theorem setBlock_steps (h : Ample faulty S w) (herror : ∀ e, p.split w.dims = .error e → faulty)
    (hS : ∀ cell, p.split w.dims = .ok (some cell) → S cell.chunk) :
    Ensures faulty (w.setBlock p id) fun r => Ample faulty S r.2 ∧ ∃ w₁, Quiets w w₁ ∧
      (r.2 = w₁ ∨ InChunks w₁.dims w₁.Generated p ∧ Edited w₁ r.2 p id) := by
  refine setBlock_ensures (P := fun w₁ => Ample faulty S w₁ ∧ Quiets w w₁) herror ?_ ?_ ?_ ?_
  · intro _
    exact ⟨h, w, Quiets.refl, .inl rfl⟩
  · intro cell hs
    apply (generate_steps h (hS cell hs)).mono
    intro r hr
    exact ⟨⟨hr.1, hr.2.1⟩, hr.2.2⟩
  · intro cell w₁ chunk _ hw₁ _ _ _
    exact ⟨hw₁.1, w₁, hw₁.2, .inl rfl⟩
  · intro cell w₁ chunk hs hw₁ hc hfresh _
    -- the chunk may have been generated first, and then the block is placed
    rcases hw₁ with ⟨h₁, hsteps₁⟩
    rw [← (hsteps₁.rules h.sound).dims] at hs
    apply (afterEdit_ensures h₁.sound h₁.spacious hs hc hfresh).mono
    intro w' hedited
    have hp : InChunks w₁.dims w₁.Generated p := ⟨cell, hs, chunk, hc, hfresh⟩
    exact ⟨h₁.edited hedited, w₁, hsteps₁, .inr ⟨hp, hedited⟩⟩

/-- What a call comes to. -/
inductive Performed (w w' : World) : Call → Prop
  | quiet {call : Call} : Quiets w w' → Performed w w' call
  | edited {p : Pos} {id : BlockId} {w₁ : World} : Quiets w w₁ →
      InChunks w₁.dims w₁.Generated p → Edited w₁ w' p id → Performed w w' (.edit p id)
  | drawn {call : Call} : Drawn w w' → Performed w w' call

/-- No call breaks the rules. -/
theorem Performed.rules (h : Performed w w' call) (hw : w.Sound) : SameRules w w' := by
  cases h with
  | quiet hsteps => exact hsteps.rules hw
  | edited hsteps _ hedited => exact (hsteps.rules hw).trans hedited.tracked.toFramed.rules
  | drawn hdrawn => exact hdrawn.rules hw

/-- A call that does not draw keeps what all steps keep. -/
theorem Performed.induct {I : World → Prop} (h : Performed w w' call)
    (hstep : ∀ w w', Step w w' → I w → I w') (hI : I w) : I w' ∨ Drawn w w' := by
  cases h with
  | quiet hsteps => exact .inl (hsteps.induct (fun w w' hs => hstep w w' hs.step) hI)
  | edited hsteps hp hedited =>
    exact .inl (hstep _ _ (.edit hp hedited)
      (hsteps.induct (fun w w' hs => hstep w w' hs.step) hI))
  | drawn hdrawn => exact .inr hdrawn

/-- Each call comes to quiet steps with at most one edit after them, or to drawing. -/
theorem perform_ensures (h : Ample faulty S w) (hcall : call.Around faulty w.dims S) :
    Ensures faulty (w.perform call) fun w' => Ample faulty S w' ∧ Performed w w' call := by
  -- uploads, swaps and draws leave the cells alone
  cases call with
  | relight c => exact absurd hcall id
  | edit p id =>
    show Ensures faulty (do
      let r ← w.setBlock p id
      return r.2) _
    apply (setBlock_steps h hcall.1 hcall.2).bind
    rintro ⟨changed, w'⟩ ⟨h', w₁, hsteps, heq | ⟨hp, hedited⟩⟩
    · rw [← heq] at hsteps
      exact Ensures.pure ⟨h', .quiet hsteps⟩
    · exact Ensures.pure ⟨h', .edited hsteps hp hedited⟩
  | process c =>
    show Ensures faulty (do
      let r ← w.process c
      return r.2) _
    apply (process_steps h hcall.1 hcall.2).bind
    intro r hr
    exact Ensures.pure ⟨hr.1, .quiet hr.2.1⟩
  | upload c =>
    have hdrawn : Drawn w (w.generateBuffers c) := generateBuffers_drawn h.sound
    exact Ensures.pure ⟨h.drawn hdrawn, .drawn hdrawn⟩
  | swap c =>
    have hdrawn : Drawn w (w.update c).2 := update_drawn h.sound
    exact Ensures.pure ⟨h.drawn hdrawn, .drawn hdrawn⟩
  | draw pass c =>
    have hdrawn : Drawn w (w.render pass c) := render_drawn h.sound pass
    exact Ensures.pure ⟨h.drawn hdrawn, .drawn hdrawn⟩

/-- The rule for runs: what the quiet steps, the edits that are called for, and drawing keep holds
in the end. -/
theorem performAll_rule {I : World → Prop} (h : Ample faulty S w)
    (hcalls : ∀ call ∈ calls, call.Around faulty w.dims S)
    (hquiet : ∀ w w', Quiet w w' → I w → I w')
    (hedit : ∀ p id w₁ w', .edit p id ∈ calls → SameRules w w₁ → InChunks w₁.dims w₁.Generated p →
      Edited w₁ w' p id → I w₁ → I w')
    (hdrawn : ∀ w w', w.Sound → Drawn w w' → I w → I w') (hI : I w) :
    Ensures faulty (w.performAll calls) fun w' => Ample faulty S w' ∧ SameRules w w' ∧ I w' := by
  refine Ensures.foldlM_inv (I := fun w' => Ample faulty S w' ∧ SameRules w w' ∧ I w') ?_
    ⟨h, SameRules.refl h.sound, hI⟩
  intro call w₁ hmem hw₁
  rcases hw₁ with ⟨h₁, hrules₁, hI₁⟩
  have hcall := hcalls call hmem
  rw [← hrules₁.dims] at hcall
  apply (perform_ensures h₁ hcall).mono
  rintro w₂ ⟨h₂, hperformed⟩
  refine ⟨h₂, hrules₁.trans (hperformed.rules h₁.sound), ?_⟩
  -- an edit comes after the quiet steps of its call
  cases hperformed with
  | quiet hsteps => exact hsteps.induct hquiet hI₁
  | edited hsteps hp hedited =>
    exact hedit _ _ _ _ hmem (hrules₁.trans (hsteps.rules h₁.sound)) hp hedited
      (hsteps.induct hquiet hI₁)
  | drawn hdraw => exact hdrawn w₁ w₂ h₁.sound hdraw hI₁

/-- What every step and every draw call keeps, a whole run keeps. -/
theorem performAll_induct {I : World → Prop} (h : Ample faulty S w)
    (hcalls : ∀ call ∈ calls, call.Around faulty w.dims S)
    (hstep : ∀ w w', Step w w' → I w → I w')
    (hdrawn : ∀ w w', w.Sound → Drawn w w' → I w → I w') (hI : I w) :
    Ensures faulty (w.performAll calls) fun w' => Ample faulty S w' ∧ SameRules w w' ∧ I w' :=
  performAll_rule h hcalls (fun w w' hs => hstep w w' hs.step)
    (fun _ _ w₁ w' _ _ hp hedited => hstep w₁ w' (.edit hp hedited)) hdrawn hI

/-- Whatever was called before, processing a chunk makes it ready. -/
theorem ready_of_process (h : Ample faulty S w)
    (hcalls : ∀ call ∈ calls, call.Around faulty w.dims S) (hc : S c)
    (hS : ∀ o ∈ neighborOffsets, S (c.beside o)) :
    Ensures faulty (w.performAll (calls ++ [.process c])) fun w' => w'.Ready c := by
  unfold performAll
  rw [List.foldlM_append]
  have hrun : Ensures faulty (w.performAll calls) fun w' =>
      Ample faulty S w' ∧ SameRules w w' ∧ True :=
    performAll_induct h hcalls (fun _ _ _ _ => trivial) (fun _ _ _ _ _ => trivial) trivial
  -- only the last call matters, the others keep room for it
  apply hrun.bind
  intro w₁ hw₁
  rw [List.foldlM_cons]
  apply Ensures.bind (P := fun w' => w'.Ready c)
  · show Ensures faulty (do
      let r ← w₁.process c
      return r.2) _
    apply (process_steps hw₁.1 hc hS).bind
    intro r hr
    exact Ensures.pure hr.2.2
  · intro w' hready
    exact Ensures.pure hready

namespace smallest

/-- The smallest world has room for all chunks that keep away from its borders. -/
theorem ample : smallest.Ample False (Roomy smallest.dims) :=
  pristine.ample rfl storable fun _ blocks => Checked.ne_error ⟨blocks, rfl⟩

/-- A torch is placed and its chunk is made ready. -/
theorem exists_ready : ∃ w chunk,
    smallest.performAll [.edit ⟨0, 0, 0⟩ 1, .process ⟨0, 0⟩] = .ok w ∧
      w.chunkAt? ⟨0, 0⟩ = some chunk ∧ chunk.isLightDirty = false ∧ chunk.isDirty = false := by
  have hrun : Ensures False (smallest.performAll ([.edit ⟨0, 0, 0⟩ 1] ++ [.process ⟨0, 0⟩]))
      fun w => w.Ready ⟨0, 0⟩ := by
    refine ready_of_process ample ?_ (roomy (by decide) (by decide)) fun o ho => ?_
    · intro call hcall
      rw [List.mem_singleton.1 hcall]
      refine ⟨fun e he => ?_, fun cell hs => ?_⟩
      · cases he
      · cases hs
        exact roomy (by decide) (by decide)
    · rcases neighborOffsets_le ho with ⟨hx, hz⟩
      refine roomy ?_ ?_
      · show -9 ≤ 0 + o.1 ∧ 0 + o.1 ≤ 9
        omega
      · show -9 ≤ 0 + o.2 ∧ 0 + o.2 ≤ 9
        omega
  rcases hrun.exists_ok id with ⟨w, hok, chunk, hc, hlight, hclean⟩
  exact ⟨w, chunk, hok, hc, hlight, hclean⟩

end smallest

end World

end VoxelWorld
