import VoxelWorld.Proofs.World.Changes

/-!
# Proofs.World.Fresh — a fresh chunk is as it was made

* A world is `Tidy` if its fresh chunks are blank. Each change keeps that (`Change.tidy`): whoever
  writes to a chunk leaves it generated, or only marks it. So does letting chunks go (`Fewer.tidy`).
* `Command` are the calls of a world, and each does one or the other (`execute_cases`).
  `fresh_chunks_blank` says that none of them touches a fresh chunk without filling it. Nothing is
  asked of the sizes, the generators or the disk.
-/

namespace VoxelWorld.World

variable {w w' : World} {c : ChunkCoord} {chunk : Chunk} {p : Pos} {cell : Cell} {k : LightKind}
  {v : Nat}

/-! ## Tidy worlds -/

/-- Fresh chunks are blank. -/
structure Tidy (w : World) : Prop where
  intact : w.store.Intact
  fresh : ∀ c chunk, w.chunkAt? c = some chunk → chunk.isFresh = true → chunk.Blank

/-- What comes in was saved, and then it was generated once, or it is blank. -/
theorem Brings.blank (h : w.Brings c chunk) (hfresh : chunk.isFresh = true) : chunk.Blank := by
  rcases h with hsaved | ⟨-, hnew⟩
  · rw [(saved?_spec hsaved).2.2.1] at hfresh
    cases hfresh
  · exact (Chunk.new_spec hnew).2.2

/-- A change keeps fresh chunks blank: what comes in is blank or generated, and what turns is
generated or only marked. -/
theorem Change.tidy (h : Change w w') (ht : w.Tidy) : w'.Tidy := by
  refine ⟨h.intact ht.intact, fun c chunk hchunk hfresh => ?_⟩
  cases h with
  | same hstore => exact ht.fresh c chunk ((chunkAt?_of_store hstore).symm.trans hchunk) hfresh
  | entered _ hbrought =>
    rcases hbrought.setAt.back hchunk with ⟨rfl, rfl⟩ | ⟨-, hold⟩
    · exact hbrought.brings.blank hfresh
    · exact ht.fresh c chunk hold hfresh
  | turned hc' _ hset hbecame =>
    rcases hset.back hchunk with ⟨rfl, rfl⟩ | ⟨-, hold⟩
    · rcases hbecame.state with rfl | hgen
      · exact (ht.fresh c _ hc' hfresh).withDirty
      · rw [hfresh] at hgen
        cases hgen
    · exact ht.fresh c chunk hold hfresh

/-- Any number of changes keeps fresh chunks blank. -/
theorem Changes.tidy (h : Changes w w') (ht : w.Tidy) : w'.Tidy :=
  h.induct (I := Tidy) (fun _ _ hs => hs.tidy) ht

/-- Chunks that stay are as they were. -/
theorem Fewer.tidy (h : Fewer w w') (ht : w.Tidy) : w'.Tidy :=
  ⟨h.intact, fun c chunk hc => ht.fresh c chunk (h.back c chunk hc)⟩

/-! ## Calls -/

/-- The calls of a world that bring chunks in, change them or let them go. The order in which far
chunks are unloaded comes with the call: `unloadOutside` is the case of `ChunkStore.bySeat`. -/
inductive Command
  | load (c : ChunkCoord)
  | loadAround (c : ChunkCoord)
  | generate (c : ChunkCoord)
  | process (c : ChunkCoord)
  | relight (c : ChunkCoord)
  | mesh (c : ChunkCoord)
  | markAround (c : ChunkCoord) (x z : Nat)
  | place (p : Pos) (id : BlockId)
  | setLight (p : Pos) (k : LightKind) (v : Nat)
  | spread (p : Pos) (k : LightKind) (v : Nat)
  | retract (p : Pos) (k : LightKind) (v : Nat)
  | unload (c : ChunkCoord)
  | unloadOutside (arrange : ChunkStore → List Chunk → List Chunk) (center : ChunkCoord)
      (radius : Int)
  | saveAll

/-- The world after a call, whether that succeeds or not. -/
def execute (w : World) : Command → Checked World
  | .load c => do return (← w.loadOrCreate c).2
  | .loadAround c => do return (← w.loadOrCreateNeighbors c).2
  | .generate c => do return (← w.generate c).2
  | .process c => do return (← w.process c).2
  | .relight c => do return (← w.updateLight c).2
  | .mesh c => do return (← w.generateMesh c).2
  | .markAround c x z => w.markNeighborsDirty c x z
  | .place p id => do return (← w.setBlock p id).2
  | .setLight p k v => do return (← w.writeLight p k v).2
  | .spread p k v => w.spreadLight p k v
  | .retract p k v => w.retractLight p k v
  | .unload c => return (w.unload c).2
  | .unloadOutside arrange center radius => do
    return (← w.unloadOutsideBy ChunkFiles.save (arrange w.store) center radius).2
  | .saveAll => return w.saveAll.2

def executeAll (w : World) (commands : List Command) : Checked World := commands.foldlM execute w

/-- One more call at the end of a run. -/
theorem executeAll_snoc {w₀ : World} {commands : List Command} {command : Command}
    (h : w₀.executeAll commands = .ok w) (hcommand : w.execute command = .ok w') :
    w₀.executeAll (commands ++ [command]) = .ok w' := Checked.foldlM_snoc h hcommand

/-- Every call changes chunks or lets them go. -/
theorem execute_cases (h : w.store.Intact) (command : Command) :
    Ensures True (w.execute command) fun w' => Changes w w' ∨ Fewer w w' := by
  have hdone : ∀ {α : Type} {m : Checked (α × World)}, (Ensures True m fun r => Changes w r.2) →
      Ensures True (do return (← m).2) fun w' => Changes w w' ∨ Fewer w w' :=
    fun hm => hm.bind fun r hr => Ensures.pure (.inl hr)
  have hsafe : SafeVolume World True (fun _ => True) (Changes w) := safeVolume_changes h
  -- only unloading takes chunks away
  cases command with
  | load c => exact hdone ((loadOrCreate_changes h).mono fun r hr => hr.1)
  | loadAround c => exact hdone (loadOrCreateNeighbors_changes h)
  | generate c => exact hdone ((generate_changes h).mono fun r hr => hr.1)
  | process c => exact hdone ((process_changes h).mono fun r hr => hr.1)
  | relight c => exact hdone ((updateLight_changes h).mono fun r hr => hr.1)
  | mesh c => exact hdone ((generateMesh_changes h).mono fun r hr => hr.1)
  | markAround c x z => exact (markNeighborsDirty_changes h).mono fun w' hw' => .inl hw'
  | place p id => exact hdone (setBlock_changes h)
  | setLight p k v => exact hdone (writeLight_changes h)
  | spread p k v =>
    exact (Light.spread_safe hsafe Changes.refl trivial v).mono fun w' hw' => .inl hw'
  | retract p k v =>
    exact (Light.retract_safe hsafe Changes.refl trivial v).mono fun w' hw' => .inl hw'
  | unload c => exact Ensures.pure (.inr (unload_fewer h))
  | unloadOutside arrange center radius =>
    exact (unloadOutsideBy_fewer h).bind fun r hr => Ensures.pure (.inr hr)
  | saveAll => exact Ensures.pure (.inl (Changes.of_store store_saveAll))

/-- Every call leaves a tidy world. -/
theorem execute_tidy (h : w.Tidy) (command : Command) :
    Ensures True (w.execute command) Tidy := by
  apply (execute_cases h.intact command).mono
  rintro w' (hchanges | hfewer)
  · exact hchanges.tidy h
  · exact hfewer.tidy h

/-- After any commands fresh chunks are blank. -/
theorem executeAll_tidy (h : w.Tidy) (commands : List Command) :
    Ensures True (w.executeAll commands) Tidy :=
  Ensures.foldlM_inv (fun command _ _ hw => execute_tidy hw command) h

/-- An empty world has none that are not. -/
theorem tidy_of_empty (h : w.store = .empty) : w.Tidy := by
  refine ⟨?_, fun c chunk hc => ?_⟩
  · rw [h]
    exact ChunkStore.intact_empty
  · unfold chunkAt? at hc
    rw [h, ChunkStore.getAt?_empty] at hc
    cases hc

/-! ## Results -/

/-- Wherever calls have led from a world without chunks, and in whatever order far chunks leave, a
resident chunk that is fresh has no block and no light in any cell, its light is still to be spread,
and it has no mesh. -/
theorem fresh_chunks_blank {w₀ : World} (hstart : w₀.store = .empty) {commands : List Command}
    {w : World} (hrun : w₀.executeAll commands = .ok w) :
    ∀ chunk ∈ w.store.chunks, chunk.isFresh = true →
      (∀ x y z, chunk.block x y z = 0) ∧
      (∀ x y z, chunk.dims.Contains x y z →
        chunk.light x y z .sky = 0 ∧ chunk.light x y z .block = 0) ∧
      chunk.isLightDirty = true ∧ chunk.life.slots = .live none none := by
  intro chunk hmem hfresh
  have htidy : w.Tidy := (executeAll_tidy (tidy_of_empty hstart) commands).of_eq_ok hrun
  have hblank := htidy.fresh chunk.coord chunk (htidy.intact.mem_chunks.1 hmem) hfresh
  refine ⟨hblank.block, fun x y z hc => ⟨hblank.light x y z .sky hc, hblank.light x y z .block hc⟩,
    hblank.isLightDirty, ?_⟩
  rw [hblank.life]
  rfl

/-- A write into a chunk that is not generated is dropped. -/
theorem writeLight_of_not_generated (hs : p.split w.dims = .ok (some cell))
    (hgen : ¬ w.Generated cell.chunk) : w.writeLight p k v = .ok (false, w) := by
  have htarget : w.lightTarget? cell k v = none := by
    cases htarget : w.lightTarget? cell k v with
    | none => rfl
    | some id =>
      rcases of_lightTarget? htarget with ⟨hid, chunk, hget, hfresh⟩
      exact absurd ⟨chunk, chunkAt?_eq_some.2 ⟨id, hid, hget⟩, hfresh⟩ hgen
  unfold writeLight
  rw [hs]
  simp only [bind, Except.bind, htarget]
  rfl

/-- A chunk is brought in, and stays as it is when light is set in it. -/
theorem smallest.exists_load : ∃ w chunk,
    smallest.executeAll [.load ⟨0, 0⟩, .setLight ⟨0, 0, 0⟩ .sky 15] = .ok w ∧
      w.chunkAt? ⟨0, 0⟩ = some chunk ∧ chunk.Blank := by
  have hload : Ensures False (smallest.loadOrCreate ⟨0, 0⟩) fun r => _ :=
    loadOrCreate_ensures smallest.pristine.sound fun e he => smallest.storable _ e he
  rcases hload.exists_ok not_false with ⟨⟨id, w⟩, hok, hframed, -, -, chunk, hchunk, hset⟩
  simp only at hframed hset
  have hblank : chunk.Blank := by
    rcases hchunk with hthere | ⟨-, hblank⟩
    · rw [smallest.pristine.chunkAt?] at hthere
      cases hthere
    · exact hblank
  have hs : (⟨0, 0, 0⟩ : Pos).split w.dims = .ok (some ⟨⟨0, 0⟩, 0, 0, 0⟩) := by
    rw [hframed.dims]
    rfl
  have hgen : ¬ w.Generated ⟨0, 0⟩ := by
    intro hgen
    cases hblank.isFresh.symm.trans (hgen.isFresh hset.self)
  have hfirst : smallest.execute (.load ⟨0, 0⟩) = .ok w := by
    show (do return (← smallest.loadOrCreate ⟨0, 0⟩).2) = _
    rw [hok]
    rfl
  -- a fresh chunk takes no light
  have hsecond : w.execute (.setLight ⟨0, 0, 0⟩ .sky 15) = .ok w := by
    show (do return (← w.writeLight ⟨0, 0, 0⟩ .sky 15).2) = _
    rw [writeLight_of_not_generated hs hgen]
    rfl
  have hstart : smallest.executeAll [] = .ok smallest := rfl
  exact ⟨w, chunk, executeAll_snoc (executeAll_snoc hstart hfirst) hsecond, hset.self, hblank⟩

/-- Light that is set in a chunk that was just brought in is dropped. -/
theorem fresh_chunks_blank_smallest :
    smallest.store = .empty ∧ ∃ w chunk,
      smallest.executeAll [.load ⟨0, 0⟩, .setLight ⟨0, 0, 0⟩ .sky 15] = .ok w ∧
      chunk ∈ w.store.chunks ∧ chunk.isFresh = true ∧ chunk.life.slots = .live none none := by
  have hstart : smallest.store = .empty := rfl
  rcases smallest.exists_load with ⟨w, chunk, hrun, hchunk, hblank⟩
  have htidy : w.Tidy := (executeAll_tidy (tidy_of_empty hstart) _).of_eq_ok hrun
  have hmem : chunk ∈ w.store.chunks := by
    have hcoord : chunk.coord = ⟨0, 0⟩ := htidy.intact.toWellFormed.coord hchunk
    rw [htidy.intact.mem_chunks, hcoord]
    exact hchunk
  have hall := fresh_chunks_blank hstart hrun chunk hmem hblank.isFresh
  exact ⟨hstart, w, chunk, hrun, hmem, hblank.isFresh, hall.2.2.2⟩

end VoxelWorld.World
