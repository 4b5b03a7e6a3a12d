import VoxelWorld.Proofs.World.Fresh

/-!
# Proofs.World.Fixpoint — what is processed once need not be processed again

* `Complete` chunks are left as they are by `process`, and so is all else (`Complete.process`).
* A world is `Sturdy` if its chunks are where they should be and none of them is disposed. In such
  a world processing a chunk makes it complete (`process_complete`).
* `Operation` are all that may be done to a world: its calls, those that move it or set it up, and
  whatever is done to a chunk through its handle short of disposing it. Each of them leaves a
  sturdy world (`operate_sturdy`), so wherever operations have led, processing a chunk once more
  does nothing (`process_reaches_fixpoint`).

Nothing is asked of the sizes, the generators or the disk, nor whether meshes are built in place.
Chunks may be fresh, loaded, edited or halfway processed.
-/

namespace VoxelWorld

/-- Something that is done to a chunk through its handle. It may set flags and exchange meshes, but
not dispose the chunk. -/
structure Handling where
  change : Lifecycle → Gpu → Lifecycle × Gpu
  spares : ∀ life gpu, life.isDisposed = false → (change life gpu).1.isDisposed = false

namespace World

variable {w w' w₀ : World} {c : ChunkCoord} {chunk : Chunk}

/-! ## Complete chunks -/

namespace Complete

/-- A complete chunk is finished. -/
theorem finished (h : w.Complete c) : w.Finished c := by
  refine ⟨h.surrounded, fun chunk hchunk _ => ?_⟩
  rcases h.ready with ⟨chunk', hchunk', hlight, -⟩
  rw [hchunk] at hchunk'
  cases hchunk'
  exact hlight

/-- Around it there is nothing to generate. -/
theorem generateNeighbors (h : w.Complete c) : w.generateNeighbors c = .ok (false, w) := by
  refine Checked.foldlM_fixed fun o ho => ?_
  show (do
    let r ← w.generate (← c.offset o.1 o.2)
    return (false || r.1, r.2)) = _
  refine Checked.bind_eq_ok.2 ⟨_, h.bounded o ho, ?_⟩
  exact Checked.bind_eq_ok.2 ⟨_, generate_of_generated (h.surrounded.2 o ho), rfl⟩

/-- The mesh of a complete chunk is built already. -/
theorem settleMesh (h : w.Complete c) : w.settleMesh c = .ok (false, w) := by
  rcases h.ready with ⟨chunk, hchunk, -, hclean⟩
  unfold World.settleMesh
  simp only [hchunk, hclean, Bool.false_and, Bool.false_eq_true, if_false]
  rfl

/-- None of the four steps of processing has anything to do. -/
theorem process (h : w.Complete c) : w.process c = .ok (false, w) := by
  unfold World.process
  refine Checked.bind_eq_ok.2 ⟨_, generate_of_generated h.surrounded.1, ?_⟩
  refine Checked.bind_eq_ok.2 ⟨_, h.generateNeighbors, ?_⟩
  refine Checked.bind_eq_ok.2 ⟨_, settleLight_of_finished h.finished, ?_⟩
  exact Checked.bind_eq_ok.2 ⟨_, h.settleMesh, rfl⟩

end Complete

/-! ## Sturdy worlds -/

/-- Chunks are found where they lie, and none of them is disposed. -/
structure Sturdy (w : World) : Prop where
  intact : w.store.Intact
  live : w.Live

/-- Processing a chunk leaves it complete, or stops. -/
theorem process_complete (h : w.Sturdy) : Ensures True (w.process c) fun r => r.2.Complete c :=
  (process_changes h.intact).mono fun _ hr => hr.2 h.live

/-- Changes keep a world sturdy. -/
theorem Changes.sturdy (h : Changes w w') (hw : w.Sturdy) : w'.Sturdy :=
  ⟨h.intact hw.intact, h.live hw.live⟩

/-- Taking chunks away keeps a world sturdy. -/
theorem Fewer.sturdy (h : Fewer w w') (hw : w.Sturdy) : w'.Sturdy :=
  ⟨h.intact, fun c chunk hc => hw.live c chunk (h.back c chunk hc)⟩

/-- An empty store holds no chunk that could be misplaced or disposed. -/
theorem sturdy_of_empty (h : w.store = .empty) : w.Sturdy := by
  refine ⟨?_, fun c chunk hc => ?_⟩
  · rw [h]
    exact ChunkStore.intact_empty
  · unfold chunkAt? at hc
    rw [h, ChunkStore.getAt?_empty] at hc
    cases hc

namespace Sturdy

theorem of_store (h : w.Sturdy) (hstore : w'.store = w.store) : w'.Sturdy :=
  (Changes.of_store hstore).sturdy h

/-- A chunk may be changed at will, as long as it stays where it is and is not disposed. -/
theorem modifyAt (h : w.Sturdy) {f : Chunk → Chunk} (hstore : w'.store = w.store.modifyAt c f)
    (hcoord : ∀ chunk, (f chunk).coord = chunk.coord)
    (hlive : ∀ chunk, w.chunkAt? c = some chunk → chunk.isDisposed = false →
      (f chunk).isDisposed = false) : w'.Sturdy where
  intact := by
    rw [hstore]
    exact h.intact.modifyAt fun chunk _ => hcoord chunk
  live c' chunk' hc' := by
    unfold chunkAt? at hc'
    rw [hstore, ChunkStore.getAt?_modifyAt h.intact.toWellFormed] at hc'
    split at hc'
    · rcases Option.map_eq_some_iff.1 hc' with ⟨chunk, hc, rfl⟩
      exact hlive chunk hc (h.live c chunk hc)
    · exact h.live c' chunk' hc'

/-- Changing a chunk by id keeps a world sturdy, whether the id finds one or not. -/
theorem modify (h : w.Sturdy) {id : ChunkId} {f : Chunk → Chunk}
    (hcoord : ∀ chunk, (f chunk).coord = chunk.coord)
    (hlive : ∀ chunk, chunk.isDisposed = false → (f chunk).isDisposed = false) :
    (w.modify id f).Sturdy := by
  cases hget : w.store.get? id with
  | none => exact h.of_store (ChunkStore.modify_eq_self hget f)
  | some chunk =>
    have hid : w.store.idOf? chunk.coord = some id :=
      h.intact.listed _ _ _ (ChunkStore.get?_eq_some.1 hget)
    rw [modify_eq_modifyAt hid]
    exact h.modifyAt rfl hcoord fun chunk _ => hlive chunk

/-- A chunk may get any state that does not dispose of it. -/
theorem modifyLife {α : Type} (h : w.Sturdy) {f : Lifecycle → Gpu → α × Lifecycle × Gpu}
    (hf : ∀ life gpu, life.isDisposed = false → (f life gpu).2.1.isDisposed = false) :
    (w.modifyLife c f).2.Sturdy := by
  unfold World.modifyLife
  cases hc : w.chunkAt? c with
  | none => exact h
  | some chunk =>
    refine h.modifyAt rfl (fun _ => rfl) fun chunk' hc' hlive => ?_
    rw [hc] at hc'
    cases hc'
    exact hf chunk.life w.gpu hlive

/-- No command disposes of a chunk that stays. -/
theorem execute (h : w.Sturdy) (command : Command) : Ensures True (w.execute command) Sturdy := by
  apply (execute_cases h.intact command).mono
  rintro w' (hchanges | hfewer)
  · exact hchanges.sturdy h
  · exact hfewer.sturdy h

/-- Choosing what is visible disposes of none. -/
theorem updateVisibility (h : w.Sturdy) {limit : Float} :
    Ensures True (w.updateVisibility limit) Sturdy := by
  unfold World.updateVisibility
  refine Ensures.foldlM_inv (fun entry u _ hu => ?_) h
  unfold updateChunkVisibility
  apply (Ensures.anyhow trivial).bind
  intro distance _
  exact Ensures.pure (hu.modify (fun _ => rfl) fun _ hlive => hlive)

end Sturdy

/-! ## Operations -/

/-- What may be done to a world. -/
inductive Operation
  | command (command : Command)
  | drain
  | updateVisibility (limit : Float)
  | moveOrigin (origin : Vec3)
  | useGenerators (generators : GeneratorSet)
  | useWorkers (workers : MeshWorkers)
  | upload (c : ChunkCoord)
  | swap (c : ChunkCoord)
  | draw (pass : Pass) (c : ChunkCoord)
  | handle (c : ChunkCoord) (handling : Handling)

/-- The world after an operation, whether that succeeds or not. -/
def operate (w : World) : Operation → Checked World
  | .command command => w.execute command
  | .drain => return w.drain.2
  | .updateVisibility limit => w.updateVisibility limit
  | .moveOrigin origin => return { w with origin }
  | .useGenerators generators => return { w with generators }
  | .useWorkers workers => return { w with workers := some workers }
  | .upload c => return w.generateBuffers c
  | .swap c => return (w.update c).2
  | .draw pass c => return w.render pass c
  | .handle c handling =>
    return (w.modifyLife c fun life gpu => ((), handling.change life gpu)).2

def operateAll (w : World) (operations : List Operation) : Checked World :=
  operations.foldlM operate w

/-- Every operation leaves a sturdy world. -/
theorem operate_sturdy (h : w.Sturdy) (operation : Operation) :
    Ensures True (w.operate operation) Sturdy := by
  cases operation with
  | command command => exact h.execute command
  | drain => exact Ensures.pure (h.of_store rfl)
  | updateVisibility limit => exact h.updateVisibility
  | moveOrigin origin => exact Ensures.pure (h.of_store rfl)
  | useGenerators generators => exact Ensures.pure (h.of_store rfl)
  | useWorkers workers => exact Ensures.pure (h.of_store rfl)
  | upload c =>
    exact Ensures.pure (h.modifyLife fun _ _ => Lifecycle.generate_shown.disposed.trans)
  | swap c => exact Ensures.pure (h.modifyLife fun _ _ => Lifecycle.update_shown.disposed.trans)
  | draw pass c => exact Ensures.pure (h.modifyLife fun _ _ hlive => hlive)
  | handle c handling => exact Ensures.pure (h.modifyLife handling.spares)

/-- After any operations the world is sturdy. -/
theorem operateAll_sturdy (h : w.Sturdy) (operations : List Operation) :
    Ensures True (w.operateAll operations) Sturdy :=
  Ensures.foldlM_inv (fun operation _ _ hw => operate_sturdy hw operation) h

/-! ## Results -/

/-- Wherever operations have led from a world without chunks, a chunk that is processed is
generated, its light is spread and its mesh is built, its neighbours are generated, and processing
it once more changes nothing at all. -/
theorem process_reaches_fixpoint {w₀ : World} (hstart : w₀.store = .empty)
    {operations : List Operation} {w : World} (hrun : w₀.operateAll operations = .ok w)
    {c : ChunkCoord} {worked : Bool} {w' : World} (hprocess : w.process c = .ok (worked, w')) :
    (∃ chunk, w'.chunkAt? c = some chunk ∧ chunk.isFresh = false ∧ chunk.isDirty = false ∧
      chunk.isLightDirty = false) ∧
    (∀ o ∈ neighborOffsets, ∃ c' chunk, c.offset o.1 o.2 = .ok c' ∧
      w'.chunkAt? c' = some chunk ∧ chunk.isFresh = false) ∧
    w'.process c = .ok (false, w') := by
  have hsturdy : w.Sturdy :=
    (operateAll_sturdy (sturdy_of_empty hstart) operations).of_eq_ok hrun
  have hcomplete : w'.Complete c := (process_complete hsturdy).of_eq_ok hprocess
  refine ⟨?_, fun o ho => ?_, hcomplete.process⟩
  · rcases hcomplete.ready with ⟨chunk, hchunk, hlight, hclean⟩
    exact ⟨chunk, hchunk, hcomplete.surrounded.1.isFresh hchunk, hclean, hlight⟩
  · rcases hcomplete.surrounded.2 o ho with ⟨chunk, hchunk, hfresh⟩
    exact ⟨_, chunk, hcomplete.bounded o ho, hchunk, hfresh⟩

/-- A torch is placed, and its chunk is processed. -/
theorem smallest.exists_processed : ∃ w worked w',
    smallest.operateAll [.command (.place ⟨0, 0, 0⟩ 1)] = .ok w ∧
      w.process ⟨0, 0⟩ = .ok (worked, w') := by
  rcases smallest.exists_ready with ⟨w', -, hrun, -⟩
  rcases Checked.bind_eq_ok.1 hrun with ⟨w, hplace, hrun⟩
  rcases Checked.bind_eq_ok.1 hrun with ⟨w₁, hprocess, -⟩
  rcases Checked.bind_eq_ok.1 hprocess with ⟨⟨worked, w₂⟩, hprocess, -⟩
  exact ⟨w, worked, w₂, Checked.bind_eq_ok.2 ⟨w, hplace, rfl⟩, hprocess⟩

theorem process_reaches_fixpoint_smallest :
    smallest.store = .empty ∧ ∃ w worked w',
      smallest.operateAll [.command (.place ⟨0, 0, 0⟩ 1)] = .ok w ∧
      w.process ⟨0, 0⟩ = .ok (worked, w') ∧ w'.process ⟨0, 0⟩ = .ok (false, w') := by
  have hstart : smallest.store = .empty := rfl
  rcases smallest.exists_processed with ⟨w, worked, w', hrun, hprocess⟩
  have hfixed := (process_reaches_fixpoint hstart hrun hprocess).2.2
  exact ⟨hstart, w, worked, w', hrun, hprocess, hfixed⟩

end World

end VoxelWorld
