import Mathlib.Logic.Relation
import VoxelWorld.Proofs.World.Steps
import VoxelWorld.Proofs.World.Unload
import VoxelWorld.Proofs.World.Updates

/-!
# Proofs.World.Changes — what the calls of a world do to its chunks

* `Change` are the things that happen to chunks, whatever the sizes, the generators and the disk
  are: one comes in, one is marked, or one is filled, relit, edited or meshed and is generated then.
* Bringing chunks in, marking them, writing levels and with it every flood, filling, meshing and
  edits are such changes one after the other (`loadOrCreate_changes` to `setBlock_changes`).
* Chunks that are let go leave the others as they are (`Fewer`, `unload_fewer` to `saveAll_fewer`).

Nothing is said of blocks and light here. What each change keeps of the chunks, every call keeps
(`Changes.induct`).
-/

namespace VoxelWorld

/-- What may become of a resident chunk: it is marked, or it is a generated one. -/
structure Chunk.Became (chunk chunk' : Chunk) : Prop where
  coord : chunk'.coord = chunk.coord
  state : chunk' = chunk.withDirty true ∨ chunk'.isFresh = false
  live : chunk.isDisposed = false → chunk'.isDisposed = false

namespace World

variable {w w' w'' w₀ : World} {c : ChunkCoord} {chunk chunk' : Chunk} {p : Pos} {cell : Cell}
  {k : LightKind} {v : Nat} {id : ChunkId} {old new : BlockId}

/-! ## Changes -/

/-- What happens to the chunks of a world. -/
inductive Change (w : World) : World → Prop
  | same {w' : World} : w'.store = w.store → Change w w'
  | entered {c : ChunkCoord} {chunk : Chunk} {w' : World} : w.chunkAt? c = none →
      Brought w w' c chunk → Change w w'
  | turned {c : ChunkCoord} {chunk chunk' : Chunk} {w' : World} : w.chunkAt? c = some chunk →
      w'.store.Intact → SetAt w w' c chunk' → chunk.Became chunk' → Change w w'

/-- Where the store is the same its chunks are. -/
theorem chunkAt?_of_store (h : w'.store = w.store) : w'.chunkAt? c = w.chunkAt? c := by
  unfold chunkAt?
  rw [h]

/-- What comes in was not disposed of. -/
theorem Brings.live (h : w.Brings c chunk) : chunk.isDisposed = false := by
  rcases h with hsaved | ⟨-, hnew⟩
  · exact (saved?_spec hsaved).2.2.2.1
  · unfold Chunk.isDisposed
    rw [(Chunk.new_spec hnew).2.2.life]
    rfl

namespace Change

/-- A change leaves chunks where they are found. -/
theorem intact (h : Change w w') (hi : w.store.Intact) : w'.store.Intact := by
  cases h with
  | same hstore =>
    rw [hstore]
    exact hi
  | entered _ hbrought => exact hbrought.intact
  | turned _ hintact _ _ => exact hintact

/-- A generated chunk stays one. -/
theorem generated (h : Change w w') (hc : w.Generated c) : w'.Generated c := by
  rcases hc with ⟨chunk, hchunk, hfresh⟩
  cases h with
  | same hstore => exact ⟨chunk, (chunkAt?_of_store hstore).trans hchunk, hfresh⟩
  | entered hnone hbrought =>
    refine ⟨chunk, (hbrought.setAt.other ?_).trans hchunk, hfresh⟩
    rintro rfl
    rw [hnone] at hchunk
    cases hchunk
  | @turned c' chunk₁ chunk₁' _ hc' _ hset hbecame =>
    -- the chunk itself was turned, or another one
    by_cases hcc : c = c'
    · subst hcc
      rw [hc'] at hchunk
      cases hchunk
      refine ⟨chunk₁', hset.self, ?_⟩
      rcases hbecame.state with rfl | hfresh'
      · exact hfresh
      · exact hfresh'
    · exact ⟨chunk, (hset.other hcc).trans hchunk, hfresh⟩

/-- What comes in was saved or is new, and neither is disposed. -/
theorem live (h : Change w w') (hlive : w.Live) : w'.Live := by
  intro c chunk hchunk
  cases h with
  | same hstore => exact hlive c chunk ((chunkAt?_of_store hstore).symm.trans hchunk)
  | entered _ hbrought =>
    rcases hbrought.setAt.back hchunk with ⟨rfl, rfl⟩ | ⟨-, hold⟩
    · exact hbrought.brings.live
    · exact hlive c chunk hold
  | turned hc' _ hset hbecame =>
    rcases hset.back hchunk with ⟨rfl, rfl⟩ | ⟨-, hold⟩
    · exact hbecame.live (hlive c _ hc')
    · exact hlive c chunk hold

end Change

/-- Any number of changes. -/
def Changes : World → World → Prop := Relation.ReflTransGen Change

namespace Changes

theorem refl : Changes w w := Relation.ReflTransGen.refl

theorem trans (h : Changes w w') (h' : Changes w' w'') : Changes w w'' :=
  Relation.ReflTransGen.trans h h'

theorem single (h : Change w w') : Changes w w' := Relation.ReflTransGen.single h

theorem of_store (h : w'.store = w.store) : Changes w w' := single (.same h)

/-- The chunk of a coordinate was changed in its place. -/
theorem turned (hi : w.store.Intact) (hc : w.chunkAt? c = some chunk) {f : Chunk → Chunk}
    (hstore : w'.store = w.store.modifyAt c f) (hbecame : chunk.Became (f chunk)) :
    Changes w w' :=
  single (.turned hc (intact_of_store hi hc hstore hbecame.coord) (setAt_of_store hi hc hstore)
    hbecame)

/-- What each change keeps, any number of them keeps. -/
theorem induct {I : World → Prop} (h : Changes w w') (hstep : ∀ w w', Change w w' → I w → I w')
    (hI : I w) : I w' := by
  induction h with
  | refl => exact hI
  | tail _ hs ih => exact hstep _ _ hs ih

theorem intact (h : Changes w w') (hi : w.store.Intact) : w'.store.Intact :=
  h.induct (I := fun w => w.store.Intact) (fun _ _ hs => hs.intact) hi

/-- Generated chunks stay generated. -/
theorem generated (h : Changes w w') (hc : w.Generated c) : w'.Generated c :=
  h.induct (I := fun w => w.Generated c) (fun _ _ hs => hs.generated) hc

/-- No chunk is disposed of by changes. -/
theorem live (h : Changes w w') (hlive : w.Live) : w'.Live :=
  h.induct (I := Live) (fun _ _ hs => hs.live) hlive

end Changes

/-! ## Bringing chunks in -/

/-- Bringing a chunk in is one change, or none if it is there. -/
theorem loadOrCreate_changes (h : w.store.Intact) :
    Ensures True (w.loadOrCreate c) fun r => Changes w r.2 ∧ r.2.store.idOf? c = some r.1 := by
  cases hid : w.store.idOf? c with
  | some id =>
    rw [loadOrCreate_of_resident hid]
    exact Ensures.ok ⟨Changes.refl, hid⟩
  | none =>
    have hnone : w.chunkAt? c = none := h.toWellFormed.idOf?_eq_none.1 hid
    apply (loadOrCreate_brought h hnone fun _ _ _ => trivial).mono
    rintro r ⟨⟨chunk, hbrought⟩, hid'⟩
    exact ⟨Changes.single (.entered hnone hbrought), hid'⟩

/-- The eight around may come in as well. -/
theorem loadOrCreateNeighbors_changes (h : w.store.Intact) :
    Ensures True (w.loadOrCreateNeighbors c) fun r => Changes w r.2 := by
  unfold loadOrCreateNeighbors
  refine (Ensures.foldlM_inv (I := fun s => Changes w s.2) (fun o s _ hs => ?_)
    Changes.refl).bind fun s hs => Ensures.pure hs
  apply (Ensures.anyhow trivial).bind
  intro c' _
  apply (loadOrCreate_changes (hs.intact h)).bind
  rintro r ⟨hr, -⟩
  exact Ensures.pure (hs.trans hr)

/-- Those that share a side are marked, once they are in. -/
theorem markNeighborsDirty_changes (h : w.store.Intact) {x z : Nat} :
    Ensures True (w.markNeighborsDirty c x z) (Changes w) := by
  unfold markNeighborsDirty
  apply (Ensures.anyhow trivial).bind
  intro touched _
  refine Ensures.foldlM_inv (fun i u _ hu => ?_) Changes.refl
  apply (Ensures.anyhow trivial).bind
  intro c' _
  apply (loadOrCreate_changes (hu.intact h)).bind
  rintro ⟨id, u'⟩ ⟨hu', hid⟩
  simp only at hu' hid
  have hi : u'.store.Intact := (hu.trans hu').intact h
  rcases chunk_of_id hi hid with ⟨chunk, -, hchunk⟩
  apply Ensures.pure
  rw [modify_eq_modifyAt hid]
  exact (hu.trans hu').trans (Changes.turned hi hchunk rfl ⟨rfl, .inl rfl, fun hlive => hlive⟩)

/-! ## Levels -/

/-- A level is written to a generated chunk only. -/
theorem writeLight_changes (h : w.store.Intact) :
    Ensures True (w.writeLight p k v) fun r => Changes w r.2 := by
  unfold writeLight
  apply (Ensures.anyhow trivial).bind
  rintro (_ | cell) -
  · exact Ensures.pure Changes.refl
  · simp only
    cases htarget : w.lightTarget? cell k v with
    | none => exact Ensures.pure Changes.refl
    | some id =>
      -- a write goes to generated chunks only, so the chunk stays generated
      rcases of_lightTarget? htarget with ⟨hid, chunk, hget, hfresh⟩
      have hchunk : w.chunkAt? cell.chunk = some chunk := chunkAt?_eq_some.2 ⟨id, hid, hget⟩
      have hwritten : Changes w (w.modify id (repaint cell k v)) := by
        rw [modify_eq_modifyAt hid]
        refine Changes.turned h hchunk rfl ⟨coord_repaint chunk, .inr ?_, fun hlive => ?_⟩
        · exact kept_repaint.isFresh.trans hfresh
        · unfold Chunk.isDisposed
          rw [kept_repaint.life]
          exact hlive
      apply (markNeighborsDirty_changes (hwritten.intact h)).bind
      intro w' hw'
      exact Ensures.pure (hwritten.trans hw')

/-- Every flood consists of changes. -/
theorem safeVolume_changes (h : w₀.store.Intact) :
    SafeVolume World True (fun _ => True) (Changes w₀) := by
  refine SafeVolume.anywhere trivial fun {w} hw p k v => ?_
  show Ensures True (do
    let r ← w.writeLight p k v
    return r.2) _
  apply (writeLight_changes (hw.intact h)).bind
  intro r hr
  exact Ensures.pure (hw.trans hr)

/-- The light of the chunk is spread then, if it is generated. -/
theorem updateLight_changes (h : w.store.Intact) :
    Ensures True (w.updateLight c) fun r => Changes w r.2 ∧ r.2.LightSpread c := by
  unfold updateLight
  cases hc : w.chunkAt? c with
  | none =>
    refine Ensures.pure ⟨Changes.refl, fun chunk hc' => ?_⟩
    rw [hc] at hc'
    cases hc'
  | some chunk =>
    refine Ensures.ite (fun hfresh => ?_) fun hfresh => ?_
    · refine Ensures.pure ⟨Changes.refl, fun chunk' hc' hf' => ?_⟩
      rw [hc] at hc'
      cases hc'
      rw [hfresh] at hf'
      cases hf'
    · have hgen : w.Generated c := ⟨chunk, hc, Bool.not_eq_true _ ▸ hfresh⟩
      refine (Light.relight_safe (safeVolume_changes h) Changes.refl (fun _ => trivial)
        (fun _ _ _ _ _ => trivial) fun _ _ _ _ _ _ => trivial).bind fun w₁ hw₁ => ?_
      -- the chunk is generated still, so its flag may be cleared
      rcases hw₁.generated hgen with ⟨chunk₁, hc₁, hfresh₁⟩
      have hset : SetAt w₁ (w₁.modifyAt c (·.withLightDirty false)) c _ :=
        setAt_of_store (hw₁.intact h) hc₁ rfl
      refine Ensures.pure ⟨hw₁.trans ?_, fun chunk' hc' _ => ?_⟩
      · exact Changes.turned (hw₁.intact h) hc₁ (f := (·.withLightDirty false)) rfl
          ⟨rfl, .inr hfresh₁, fun hlive => hlive⟩
      · cases hset.self.symm.trans hc'
        rfl

/-- Spreading dirty light is made of changes too, and leaves it clean. -/
theorem settleLight_changes (h : w.store.Intact) :
    Ensures True (w.settleLight c) fun r => Changes w r.2 ∧ r.2.LightSpread c := by
  unfold settleLight
  cases hc : w.chunkAt? c with
  | none =>
    refine Ensures.pure ⟨Changes.refl, fun chunk hc' => ?_⟩
    rw [hc] at hc'
    cases hc'
  | some chunk =>
    refine Ensures.ite (fun _ => updateLight_changes h) fun hclean => ?_
    refine Ensures.pure ⟨Changes.refl, fun chunk' hc' _ => ?_⟩
    rw [hc] at hc'
    cases hc'
    exact Bool.not_eq_true _ ▸ hclean

/-! ## Filling -/

/-- Writing levels does not move a chunk, nor does it change its state. -/
theorem safeVolume_life (chunk : Chunk) : SafeVolume ChunkVolume True (fun _ => True) fun vol =>
    vol.chunk.coord = chunk.coord ∧ vol.chunk.life = chunk.life := by
  refine SafeVolume.anywhere trivial fun {vol} hvol p k v => ?_
  show Ensures True (vol.setLight p k v) _
  unfold ChunkVolume.setLight
  apply (Ensures.anyhow trivial).bind
  intro q _
  refine Ensures.pure ?_
  rw [Chunk.coord_putLight, Chunk.life_putLight]
  exact hvol

/-- Seeding leaves the coordinate and the state of a chunk alone. -/
theorem seedSky_life {reg : Registry} : Ensures True (Light.seedSky reg chunk) fun chunk' =>
    chunk'.coord = chunk.coord ∧ chunk'.life = chunk.life := by
  unfold Light.seedSky
  have hstart : Ensures True (ChunkVolume.new chunk) fun vol =>
      vol.chunk.coord = chunk.coord ∧ vol.chunk.life = chunk.life := by
    unfold ChunkVolume.new
    apply (Ensures.anyhow trivial).bind
    intro x _
    apply (Ensures.anyhow trivial).bind
    intro z _
    exact Ensures.pure ⟨rfl, rfl⟩
  apply hstart.bind
  intro vol hvol
  -- every column writes through the same volume
  refine (Ensures.foldlM_inv
    (I := fun vol => vol.chunk.coord = chunk.coord ∧ vol.chunk.life = chunk.life)
    (fun x vol _ hvol => ?_) hvol).bind fun vol hvol => Ensures.pure hvol
  refine Ensures.foldlM_inv (fun z vol _ hvol => ?_) hvol
  apply (Ensures.anyhow trivial).bind
  intro wx _
  apply (Ensures.anyhow trivial).bind
  intro wz _
  exact Light.refreshColumn_safe (safeVolume_life chunk) hvol fun _ _ => trivial

/-- A chunk is filled in its place, and is not fresh then. -/
theorem populate_became : Ensures True (w.populate chunk) fun chunk' =>
    chunk.Became chunk' ∧ chunk'.isFresh = false := by
  unfold populate
  apply (Chunk.populate_ensures fun _ _ _ => trivial).bind
  rintro chunk₁ ⟨hcoord, -, hlife, -⟩
  apply seedSky_life.bind
  rintro chunk₂ ⟨hcoord', hlife'⟩
  refine Ensures.pure ⟨⟨hcoord'.trans hcoord, .inr rfl, fun hlive => ?_⟩, rfl⟩
  show Lifecycle.isDisposed { chunk₂.life with fresh := false } = false
  rw [hlife', hlife]
  exact hlive

/-- Generating a chunk brings it in and fills it. -/
theorem generate_changes (h : w.store.Intact) :
    Ensures True (w.generate c) fun r => Changes w r.2 ∧ r.2.Generated c := by
  unfold generate
  apply (loadOrCreate_changes h).bind
  rintro ⟨id, w₁⟩ ⟨hw₁, hid⟩
  simp only at hw₁ hid
  rcases chunk_of_id (hw₁.intact h) hid with ⟨chunk, hget, hc⟩
  simp only [hget]
  -- a chunk that is there may be fresh still, or have come from the disk generated
  refine Ensures.ite (fun hgen => ?_) fun _ => ?_
  · exact Ensures.pure ⟨hw₁, chunk, hc, by simpa using hgen⟩
  · apply populate_became.bind
    rintro chunk' ⟨hbecame, hfresh⟩
    have hset : SetAt w₁ (w₁.withFilled c chunk') c chunk' :=
      setAt_of_store (hw₁.intact h) hc (f := fun _ => chunk') rfl
    have hfilled : Changes w₁ (w₁.withFilled c chunk') :=
      Changes.turned (hw₁.intact h) hc (f := fun _ => chunk') rfl hbecame
    apply Ensures.pure
    rw [modify_eq_modifyAt hid]
    exact ⟨hw₁.trans hfilled, chunk', hset.self, hfresh⟩

/-- All eight neighbours are generated then. -/
theorem generateNeighbors_changes (h : w.store.Intact) :
    Ensures True (w.generateNeighbors c) fun r => Changes w r.2 ∧ ∀ o ∈ neighborOffsets,
      c.offset o.1 o.2 = .ok (c.beside o) ∧ r.2.Generated (c.beside o) := by
  unfold generateNeighbors
  -- what is generated stays so, and all else is kept along the changes
  refine (Ensures.foldlM_all (s := (false, w)) (G := fun s : Bool × World => s.2.store.Intact)
    (T := fun s t => Changes s.2 t.2)
    (P := fun o s => c.offset o.1 o.2 = .ok (c.beside o) ∧ s.2.Generated (c.beside o))
    (fun _ => Changes.refl) (fun _ _ _ hst htu => hst.trans htu)
    (fun _ _ _ hst hP => ⟨hP.1, hst.generated hP.2⟩) ?_ h).mono fun r hr => hr.2
  rintro ⟨dx, dz⟩ ⟨worked, w₁⟩ ho hi
  apply (Ensures.anyhow trivial).and_eq_ok.bind
  rintro c' ⟨-, hc'⟩
  have heq : c' = c.beside (dx, dz) := ChunkCoord.offset_eq_ok hc'
  subst heq
  apply (generate_changes hi).bind
  rintro r ⟨hr, hgen⟩
  exact Ensures.pure ⟨hr.intact hi, hr, hc', hgen⟩

/-! ## Meshes -/

/-- If the chunk is generated and was not disposed, it is clean, and its light is no more dirty than
it was. -/
def Remeshed (w w' : World) (c : ChunkCoord) : Prop :=
  ∀ chunk, w.chunkAt? c = some chunk → chunk.isFresh = false → chunk.isDisposed = false →
    ∃ chunk', w'.chunkAt? c = some chunk' ∧ chunk'.isDirty = false ∧
      chunk'.isLightDirty = chunk.isLightDirty

/-- Installing a mesh in a generated chunk. -/
theorem remeshed_of_store (hi : w.store.Intact) (hc : w.chunkAt? c = some chunk)
    (hfresh : chunk.isFresh = false) {life : Lifecycle} {g : MeshGeometry}
    (hinstalled : Lifecycle.Installed chunk.life life g)
    (hstore : w'.store = w.store.modifyAt c fun chunk => { chunk with life }) :
    Changes w w' ∧ Remeshed w w' c := by
  constructor
  · refine Changes.turned hi hc hstore ⟨rfl, .inr ?_, fun _ => hinstalled.live⟩
    exact hinstalled.fresh.trans hfresh
  · intro chunk' hc' _ _
    rw [hc] at hc'
    cases hc'
    exact ⟨_, (setAt_of_store hi hc hstore).self, hinstalled.dirty, hinstalled.lightDirty⟩

/-- A mesh built in place is installed, which makes the chunk clean. -/
theorem meshInPlace_changes (hi : w.store.Intact) (hc : w.chunkAt? c = some chunk)
    (hfresh : chunk.isFresh = false) (hlive : chunk.isDisposed = false) :
    Ensures True (w.meshInPlace c chunk.life) fun r => Changes w r.2 ∧ Remeshed w r.2 c := by
  unfold meshInPlace
  apply (Ensures.anyhow trivial).bind
  intro g _
  have hinstall : ∃ life gpu, chunk.life.installMesh (.new g) w.gpu = (true, life, gpu) ∧
      Lifecycle.Installed chunk.life life g := Lifecycle.installMesh_spec hfresh hlive
  rcases hinstall with ⟨life, gpu, heq, hinstalled⟩
  simp only [heq, if_true]
  exact Ensures.pure (remeshed_of_store hi hc hfresh hinstalled rfl)

/-- A mesh that is built by a worker is a change. -/
theorem meshByJob_changes (hi : w.store.Intact) (hc : w.chunkAt? c = some chunk)
    (hfresh : chunk.isFresh = false) (hlive : chunk.isDisposed = false) {workers : MeshWorkers} :
    Ensures True (w.meshByJob c workers chunk.life) fun w' =>
      Changes w w' ∧ Remeshed w w' c := by
  unfold meshByJob
  apply (Ensures.anyhow trivial).bind
  intro snapshot _
  rcases hsubmit : workers.submit snapshot { chunk.life with dirty := false } w.gpu with
    ⟨job, workers', life, gpu⟩
  apply (MeshJob.finish_ensures hlive (Ensures.anyhow trivial) hsubmit).bind
  rintro ⟨done, life', gpu'⟩ ⟨g, -, hinstalled⟩
  exact Ensures.pure (remeshed_of_store hi hc hfresh hinstalled rfl)

/-- A mesh is built of a generated chunk only, and not once that is disposed. -/
theorem generateMesh_changes (h : w.store.Intact) :
    Ensures True (w.generateMesh c) fun r => Changes w r.2 ∧ Remeshed w r.2 c := by
  unfold generateMesh
  cases hc : w.chunkAt? c with
  | none =>
    refine Ensures.pure ⟨Changes.refl, fun chunk hc' => ?_⟩
    rw [hc] at hc'
    cases hc'
  | some chunk =>
    -- fresh and disposed chunks get no mesh, and nothing is claimed of them
    refine Ensures.ite (fun hno => ?_) fun hyes => ?_
    · refine Ensures.pure ⟨Changes.refl, fun chunk' hc' hfresh hlive => ?_⟩
      rw [hc] at hc'
      cases hc'
      rw [hfresh, hlive] at hno
      cases hno
    · rw [Bool.or_eq_true, not_or, Bool.not_eq_true, Bool.not_eq_true] at hyes
      cases w.workers with
      | none => exact meshInPlace_changes h hc hyes.1 hyes.2
      | some workers =>
        exact (meshByJob_changes h hc hyes.1 hyes.2).bind fun w' hw' => Ensures.pure hw'

/-- A chunk whose light was spread is ready then. -/
theorem settleMesh_changes (h : w.store.Intact) :
    Ensures True (w.settleMesh c) fun r => Changes w r.2 ∧
      (w.Live → w.Generated c → w.LightSpread c → r.2.Ready c) := by
  unfold settleMesh
  cases hc : w.chunkAt? c with
  | none =>
    refine Ensures.pure ⟨Changes.refl, fun _ hgen _ => ?_⟩
    rcases hgen with ⟨chunk, hchunk, -⟩
    cases hc.symm.trans hchunk
  | some chunk =>
    -- a chunk left alone is clean already, since it is generated and its light was spread
    refine Ensures.ite (fun _ => ?_) fun hidle => ?_
    · apply (generateMesh_changes h).mono
      rintro r ⟨hr, hmeshed⟩
      refine ⟨hr, fun hlive hgen hspread => ?_⟩
      have hfresh := hgen.isFresh hc
      rcases hmeshed chunk hc hfresh (hlive c chunk hc) with ⟨chunk', hc', hclean, hlight⟩
      exact ⟨chunk', hc', hlight.trans (hspread chunk hc hfresh), hclean⟩
    · refine Ensures.pure ⟨Changes.refl, fun _ hgen hspread => ?_⟩
      have hfresh := hgen.isFresh hc
      have hlight := hspread chunk hc hfresh
      rw [hlight, hfresh, Bool.not_false, Bool.and_true, Bool.and_true, Bool.not_eq_true] at hidle
      exact ⟨chunk, hc, hlight, hidle⟩

/-! ## Processing -/

/-- Nothing is left to do for the chunk: it is ready, and all eight neighbours are generated, so
that none of them lies where no coordinates are. -/
structure Complete (w : World) (c : ChunkCoord) : Prop where
  ready : w.Ready c
  surrounded : w.Surrounded c
  bounded : ∀ o ∈ neighborOffsets, c.offset o.1 o.2 = .ok (c.beside o)

/-- Processing is made of changes, and leaves the chunk complete if no chunk was disposed. -/
theorem process_changes (h : w.store.Intact) :
    Ensures True (w.process c) fun r => Changes w r.2 ∧ (w.Live → r.2.Complete c) := by
  unfold process
  apply (generate_changes h).bind
  rintro ⟨own, w₁⟩ ⟨h₁, hgen₁⟩
  apply (generateNeighbors_changes (h₁.intact h)).bind
  rintro ⟨around, w₂⟩ ⟨h₂, haround₂⟩
  have hto₂ : Changes w w₂ := h₁.trans h₂
  apply (settleLight_changes (hto₂.intact h)).bind
  rintro ⟨lit, w₃⟩ ⟨h₃, hspread₃⟩
  have hto₃ : Changes w w₃ := hto₂.trans h₃
  have hgen₃ : w₃.Generated c := (h₂.trans h₃).generated hgen₁
  apply (settleMesh_changes (hto₃.intact h)).bind
  rintro ⟨meshed, w₄⟩ ⟨h₄, hready⟩
  -- no later step undoes what an earlier one brought about
  refine Ensures.pure ⟨hto₃.trans h₄, fun hlive => ⟨?_, ⟨?_, fun o ho => ?_⟩, fun o ho => ?_⟩⟩
  · exact hready (hto₃.live hlive) hgen₃ hspread₃
  · exact h₄.generated hgen₃
  · exact (h₃.trans h₄).generated (haround₂ o ho).2
  · exact (haround₂ o ho).1

/-! ## Edits -/

/-- What follows an edit are changes to light, and marks. -/
theorem afterEdit_changes (h : w₀.store.Intact) (hw : Changes w₀ w) :
    Ensures True (w.afterEdit p cell old new) (Changes w₀) := by
  apply afterEdit_safe (safeVolume_changes h) trivial
  apply (markNeighborsDirty_changes (hw.intact h)).mono
  intro w₁ hw₁
  exact ⟨hw.trans hw₁, fun _ _ => trivial⟩

/-- The chunk of an edit is generated before the block is placed. -/
theorem setBlock_changes (h : w.store.Intact) :
    Ensures True (w.setBlock p new) fun r => Changes w r.2 := by
  unfold setBlock
  apply (Ensures.anyhow trivial).bind
  rintro (_ | cell) -
  · exact Ensures.pure Changes.refl
  · apply (generate_changes h).bind
    rintro ⟨did, w₁⟩ ⟨h₁, chunk, hc, hfresh⟩
    simp only at h₁ hc
    simp only [hc]
    refine Ensures.ite (fun _ => Ensures.pure h₁) fun _ => ?_
    have hplaced : Changes w₁ (w₁.modifyAt cell.chunk fun c =>
        (c.putBlock cell.x cell.y cell.z new).withDirty true) :=
      Changes.turned (h₁.intact h) hc rfl ⟨rfl, .inr hfresh, fun hlive => hlive⟩
    apply (afterEdit_changes h (h₁.trans hplaced)).bind
    intro w₂ h₂
    exact Ensures.pure h₂

/-! ## Letting go -/

/-- Some chunks may be gone, and the others are as they were. -/
structure Fewer (w w' : World) : Prop where
  intact : w'.store.Intact
  back : ∀ c chunk, w'.chunkAt? c = some chunk → w.chunkAt? c = some chunk

namespace Fewer

theorem of_store (hi : w.store.Intact) (hstore : w'.store = w.store) : Fewer w w' where
  intact := by
    rw [hstore]
    exact hi
  back c chunk hc := (chunkAt?_of_store hstore).symm.trans hc

theorem trans (h : Fewer w w') (h' : Fewer w' w'') : Fewer w w'' :=
  ⟨h'.intact, fun c chunk hc => h.back c chunk (h'.back c chunk hc)⟩

end Fewer

/-- Writing a chunk to the disk leaves the store alone. -/
theorem store_persist : (w.persist chunk).2.store = w.store := by
  unfold persist persistBy
  split
  · rfl
  · split
    · rfl
    · rfl

/-- Unloading takes at most the one chunk away. -/
theorem unload_fewer (h : w.store.Intact) : Fewer w (w.unload c).2 := by
  rw [unload_eq]
  cases hc : w.chunkAt? c with
  | none => exact Fewer.of_store h rfl
  | some chunk =>
    have hstore : (w.persist chunk).2.store = w.store := store_persist
    simp only
    -- a failed write keeps the chunk, a successful one lets it go
    rcases hpersist : w.persist chunk with ⟨e | saved, w₁⟩
    · rw [hpersist] at hstore
      exact Fewer.of_store h hstore
    · rw [hpersist] at hstore
      have h₁ : Fewer w w₁ := Fewer.of_store h hstore
      have hc₁ : w₁.chunkAt? c = some chunk := (chunkAt?_of_store hstore).trans hc
      rcases retire_spec h₁.intact hc₁ saved with ⟨w₂, hretire, hgone⟩
      simp only [hretire]
      refine h₁.trans ⟨hgone.intact, fun c' chunk' hc' => ?_⟩
      rw [hgone.chunkAt?] at hc'
      split at hc'
      · cases hc'
      · exact hc'

/-- Unloading many takes at most these. -/
theorem unloadAll_fewer (h : w.store.Intact) (cs : List ChunkCoord) :
    Fewer w (w.unloadAllBy ChunkFiles.save cs).2 := by
  induction cs generalizing w with
  | nil => exact Fewer.of_store h rfl
  | cons c rest ih =>
    have h₁ : Fewer w (w.unloadBy ChunkFiles.save c).2 := unload_fewer h
    unfold unloadAllBy
    rcases hunload : w.unloadBy ChunkFiles.save c with ⟨e | b, w₁⟩
    · rw [hunload] at h₁
      exact h₁
    · rw [hunload] at h₁
      exact h₁.trans (ih h₁.intact)

/-- The order plays no part. -/
theorem unloadOutsideBy_fewer (h : w.store.Intact) {arrange : List Chunk → List Chunk}
    {center : ChunkCoord} {radius : Int} :
    Ensures True (w.unloadOutsideBy ChunkFiles.save arrange center radius) fun r =>
      Fewer w r.2 := by
  unfold unloadOutsideBy
  apply (Ensures.anyhow trivial).bind
  intro far _
  exact Ensures.pure (unloadAll_fewer h _)

/-- Writing all chunks leaves the store alone as well. -/
theorem store_persistAll {n : Nat} (chunks : List Chunk) :
    (w.persistAll n chunks).2.store = w.store := by
  induction chunks generalizing w n with
  | nil => rfl
  | cons chunk rest ih =>
    have hstore : (w.persist chunk).2.store = w.store := store_persist
    unfold persistAll
    rcases hpersist : w.persist chunk with ⟨e | saved, w₁⟩
    · rw [hpersist] at hstore
      exact hstore
    · rw [hpersist] at hstore
      exact ih.trans hstore

/-- Saving all chunks leaves the store alone. -/
theorem store_saveAll : w.saveAll.2.store = w.store := by
  have hstore := store_persistAll (w := w) (n := 0) w.store.chunks
  unfold saveAll
  rcases hpersist : w.persistAll 0 w.store.chunks with ⟨e | n, w₁⟩
  · rw [hpersist] at hstore
    exact hstore
  · rw [hpersist] at hstore
    exact hstore

end World

end VoxelWorld
