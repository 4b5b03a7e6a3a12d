import VoxelWorld.Proofs.World.BlockMap

/-!
# Proofs.World.Reload — a chunk that comes back from the disk

* A `Vacant` world has no chunks, whatever it has saved. `givenBlock` is the block that it has for
  a position, saved or generated.
* `Spared` is what calls keep of a chunk in which they place no block. Once such a chunk has been
  processed it stays `Finished` (`performAll_spared`).
* `Mirrors` relates worlds that show the same. A finished chunk that is written and let go comes
  back as it was, and processing it changes nothing that can be seen (`Released.process`).
-/

namespace VoxelWorld

/-- Processing any chunk, and placing blocks in all chunks but one. -/
def Call.Spares (d : Dims) (c : ChunkCoord) : Call → Prop
  | process c' => c'.Fits
  | edit p _ => FitsCoord p.x ∧ FitsCoord p.z ∧ ¬ InChunks d (· = c) p
  | _ => False

/-- Calls that spare a chunk relight none by hand. -/
theorem Call.Spares.streams {d : Dims} {c : ChunkCoord} {call : Call} (h : call.Spares d c) :
    call.Streams := by
  cases call with
  | process c' => trivial
  | edit p id => trivial
  | relight c' => exact h
  | upload c' => exact absurd h id
  | swap c' => exact absurd h id
  | draw pass c' => exact absurd h id

namespace Chunk

/-- What is read of a chunk is read of its cells. -/
theorem blockIn_cells {o : Option Chunk} {cell : Cell} :
    blockIn (o.map cells) cell = blockIn o cell := by
  cases o <;> rfl

/-- The state of a chunk says nothing of its light. -/
theorem lightIn_cells {o : Option Chunk} {cell : Cell} {k : LightKind} :
    lightIn (o.map cells) cell k = lightIn o cell k := by
  cases o with
  | none => rfl
  | some chunk => cases k <;> rfl

end Chunk

namespace World

variable {w w' w'' w₀ w₁ : World} {f : ChunkFiles} {c c' : ChunkCoord} {chunk : Chunk} {p : Pos}
  {k : LightKind} {m : Pos → BlockId} {call : Call} {calls : List Call} {faulty : Prop}

/-! ## Where runs start -/

/-- A world without chunks, of a configuration that was let through. If it saves chunks then nothing
stands in the way. -/
structure Vacant (w : World) : Prop where
  valid : w.config.validate = .ok ()
  store : w.store = .empty
  serves : ∀ f, w.files = some f → f.Serves w.disk

/-- The block that a world without chunks has for a position. -/
def givenBlock (w : World) (p : Pos) : BlockId :=
  match w.saved? (p.home w.dims) with
  | .ok (some chunk) => chunk.block (p.cell w.dims).x (p.cell w.dims).y (p.cell w.dims).z
  | _ => w.generatedBlock p

/-- A chunk that is brought has the given blocks, or will have them. -/
theorem Brings.agrees (h : w.Brings c chunk) (hd : w.dims.Valid) :
    chunk.Agrees w.generators w.givenBlock := by
  have hplace : ∀ x y z, chunk.dims.Contains x y z →
      (chunk.place x y z).home w.dims = c ∧ ((chunk.place x y z).cell w.dims).x = x ∧
        ((chunk.place x y z).cell w.dims).y = y ∧ ((chunk.place x y z).cell w.dims).z = z := by
    intro x y z hin
    rcases h.spec with ⟨hcoord, hdims, -⟩
    rw [← hcoord, ← hdims]
    refine Chunk.split_place ?_ hin
    rw [hdims]
    exact hd
  -- a saved chunk shows what was saved, and a new one promises what the passes give
  rcases h with hsaved | ⟨hnone, hnew⟩
  · rcases saved?_spec hsaved with ⟨-, -, hfresh, -⟩
    refine ⟨fun _ x y z hin => ?_, fun hf => ?_⟩
    · rcases hplace x y z hin with ⟨hhome, hx, hy, hz⟩
      unfold givenBlock
      rw [hhome, hsaved, hx, hy, hz]
    · rw [hfresh] at hf
      cases hf
  · refine ⟨fun hf => ?_, fun _ blocks hrun x y z hin => ?_⟩
    · rw [(Chunk.new_spec hnew).2.2.isFresh] at hf
      cases hf
    · rw [promises_generatedBlock hd hnew blocks hrun x y z hin]
      unfold givenBlock
      rw [(hplace x y z hin).1, hnone]

namespace Vacant

theorem valid_dims (h : w.Vacant) : w.dims.Valid := Dims.Valid.of_validate h.valid

theorem chunkAt? (h : w.Vacant) : w.chunkAt? c = none := by
  unfold World.chunkAt?
  rw [h.store]
  exact ChunkStore.getAt?_empty

theorem pristine (h : w.Vacant) (hfiles : w.files = none) : w.Pristine :=
  ⟨h.valid, hfiles, h.store⟩

/-- The blocks that it has for each position are those it gives. -/
theorem archived (h : w.Vacant) : w.Archived w.givenBlock where
  valid := h.valid_dims
  intact := by
    rw [h.store]
    exact ChunkStore.intact_empty
  resident c chunk hc := by
    rw [h.chunkAt?] at hc
    cases hc
  absent c chunk _ _ hbrings := hbrings.agrees h.valid_dims

end Vacant

/-! ## Runs that spare a chunk -/

/-- The world is one that started as `w₀`, and no block has been placed in the chunk. -/
structure Spared (w₀ : World) (c : ChunkCoord) (w : World) : Prop extends SameBase w₀ w where
  archived : ∃ m, w.Archived m ∧ ∀ p, InChunks w₀.dims (· = c) p → m p = w₀.givenBlock p

/-- At first every chunk is spared. -/
theorem Spared.start (h : w.Vacant) : Spared w c w :=
  ⟨SameBase.refl, w.givenBlock, h.archived, fun _ _ => rfl⟩

/-- A call spares the chunk, and if it processes the chunk then this is finished. -/
theorem Spared.perform (h : Spared w₀ c w) (hcall : call.Spares w₀.dims c) :
    Ensures True (w.perform call) fun w' =>
      Spared w₀ c w' ∧ Onward w w' ∧ (call = .process c → w'.Finished c) := by
  rcases h.archived with ⟨m, harch, hm⟩
  cases call with
  | process c' =>
    show Ensures True (do
      let r ← w.process c'
      return r.2) _
    apply (process_keeps harch hcall).bind
    rintro ⟨worked, w'⟩ ⟨harch', honward, hfinished⟩
    refine Ensures.pure ⟨⟨h.toSameBase.trans honward.toSameBase, m, harch', hm⟩, honward, ?_⟩
    rintro heq
    cases heq
    exact hfinished
  | edit p id =>
    show Ensures True (do
      let r ← w.setBlock p id
      return r.2) _
    rcases hcall with ⟨hx, hz, hout⟩
    apply (setBlock_archived harch (Room.anywhere harch.valid) hx hz trivial
      fun _ _ _ => trivial).bind
    rintro ⟨changed, w'⟩ ⟨-, honward, harch'⟩
    refine Ensures.pure ⟨⟨h.toSameBase.trans honward.toSameBase, _, harch', fun q hq => ?_⟩,
      honward, nofun⟩
    -- the block lies in another chunk
    have hne : q ≠ p := by
      rintro rfl
      exact hout hq
    cases changed with
    | false => exact hm q hq
    | true => exact (Function.update_of_ne hne _ _).trans (hm q hq)
  | relight c' => exact absurd hcall id
  | upload c' => exact absurd hcall id
  | swap c' => exact absurd hcall id
  | draw pass c' => exact absurd hcall id

/-- After a run that spares the chunk and processes it, it is finished and as it was given. -/
theorem performAll_spared (h : Vacant w₀) (hcalls : ∀ call ∈ calls, call.Spares w₀.dims c)
    (hmem : .process c ∈ calls) (hrun : w₀.performAll calls = .ok w) :
    Spared w₀ c w ∧ w.Finished c := by
  have hall : Ensures True (w₀.performAll calls) fun w => Spared w₀ c w ∧ Onward w₀ w ∧
      ∀ call ∈ calls, call = .process c → w.Finished c :=
    Ensures.foldlM_all (fun _ => Onward.refl) (fun _ _ _ huv hvw => huv.trans hvw)
      (fun _ _ _ honward hfinished heq => honward.finished (hfinished heq))
      (fun call _ hcall hw => hw.perform (hcalls call hcall)) (Spared.start h)
  rcases hall.of_eq_ok hrun with ⟨hspared, -, hfinished⟩
  exact ⟨hspared, hfinished _ hmem rfl⟩

/-! ## Worlds that show the same -/

/-- The worlds show the same. -/
structure Mirrors (w w' : World) : Prop where
  dims : w'.dims = w.dims
  cells : ∀ c, (w'.chunkAt? c).map Chunk.cells = (w.chunkAt? c).map Chunk.cells

/-- Other states of chunks do not show. -/
theorem SameCells.mirrors (h : SameCells w w') : Mirrors w w' := ⟨h.dims, h.cells⟩

namespace Mirrors

theorem trans (h : Mirrors w w') (h' : Mirrors w' w'') : Mirrors w w'' :=
  ⟨h'.dims.trans h.dims, fun c => (h'.cells c).trans (h.cells c)⟩

/-- Worlds that show the same have the same blocks. -/
theorem blockAt (h : Mirrors w w') : w'.blockAt p = w.blockAt p := by
  refine blockAt_of_chunks h.dims fun cell _ => ?_
  rw [← Chunk.blockIn_cells, h.cells, Chunk.blockIn_cells]

/-- Worlds that show the same have the same light. -/
theorem lightAt (h : Mirrors w w') (hd : w.dims.Valid) : w'.lightAt p k = w.lightAt p k := by
  refine lightAt_of_chunks hd h.dims fun cell _ => ?_
  rw [← Chunk.lightIn_cells, h.cells, Chunk.lightIn_cells]

end Mirrors

/-! ## Processing -/

/-- Around a surrounded chunk there is nothing to generate. -/
theorem generateNeighbors_of_surrounded (hd : w.dims.Valid) (hroom : ¬ Roomy w.dims c → faulty)
    (hc : w.Surrounded c) : Ensures faulty (w.generateNeighbors c) fun r => r.2 = w := by
  unfold generateNeighbors
  refine Ensures.foldlM_inv (I := fun s : Bool × World => s.2 = w) ?_ rfl
  rintro ⟨dx, dz⟩ ⟨worked, u⟩ ho hu
  simp only at hu
  rw [hu]
  apply (offset_ensures hd hroom ho).bind_eq
  rw [generate_of_generated (hc.2 _ ho)]
  exact Ensures.pure rfl

/-- If generating a chunk leaves it and the eight around it generated, then what is left to do is
to settle its light, and a mesh. -/
theorem process_of_surrounded {P Q : World → Prop} (hroom : ¬ Roomy w.dims c → faulty)
    (hjobs : w.workers ≠ none → ¬ Snapshot.Numbered w.dims → faulty)
    (hgen : Ensures faulty (w.generate c) fun r =>
      r.2.dims.Valid ∧ SameBase w r.2 ∧ r.2.Surrounded c ∧ P r.2)
    (hlight : ∀ u, SameBase w u → P u → Ensures faulty (u.settleLight c) fun r =>
      SameBase u r.2 ∧ r.2.store.Intact ∧ Q r.2) :
    Ensures faulty (w.process c) fun r => ∃ u, Q u ∧ SameCells u r.2 := by
  unfold process
  apply hgen.bind
  rintro ⟨own, w₁⟩ ⟨hd, hbase₁, hsurr, hP⟩
  simp only at hd hbase₁ hsurr hP
  -- the neighbours are there, so nothing else is generated
  apply (generateNeighbors_of_surrounded hd (by rw [hbase₁.dims]; exact hroom) hsurr).bind
  rintro ⟨around, w₂⟩ heq
  simp only at heq
  rw [heq]
  apply (hlight w₁ hbase₁ hP).bind
  rintro ⟨lit, w₃⟩ ⟨hbase₃, hintact, hQ⟩
  have hbase := hbase₁.trans hbase₃
  have hmesh : Ensures faulty (w₃.settleMesh c) fun r => SameCells w₃ r.2 := by
    apply settleMesh_cells _ hintact
    · rw [hbase.dims]
      exact hroom
    · rw [hbase.dims]
      exact fun hw => hjobs fun hnone => hw (hbase.workers hnone)
    · rw [hbase₃.dims]
      exact hd
  apply hmesh.bind
  rintro ⟨meshed, w₄⟩ hcells
  exact Ensures.pure ⟨w₃, hQ, hcells⟩

/-! ## Back from the disk -/

/-- A chunk that is not there comes in, and nothing else happens if it is not fresh. -/
theorem generate_brought (hi : w.store.Intact) (hnone : w.chunkAt? c = none)
    (hnew : ∀ c e, Chunk.new c w.dims = .error e → faulty)
    (hfresh : ∀ chunk, w.Brings c chunk → chunk.isFresh = false) :
    Ensures faulty (w.generate c) fun r => ∃ chunk, Brought w r.2 c chunk := by
  unfold generate
  apply (loadOrCreate_brought hi hnone hnew).bind
  rintro ⟨i, w₁⟩ ⟨⟨chunk, hbrought⟩, hid⟩
  simp only at hbrought hid
  rcases chunk_of_id hbrought.intact hid with ⟨chunk', hget, hc'⟩
  cases hbrought.setAt.self.symm.trans hc'
  simp only [hget, hfresh chunk hbrought.brings, Bool.not_false, if_true]
  exact Ensures.pure ⟨chunk, hbrought⟩

/-- The chunk is gone, and will come back as it was. -/
structure Released (w w' : World) (c : ChunkCoord) (chunk : Chunk) : Prop where
  dims : w'.dims = w.dims
  workers : w.workers = none → w'.workers = none
  intact : w'.store.Intact
  chunkAt? : ∀ c', w'.chunkAt? c' = if c' = c then none else w.chunkAt? c'
  brings : ∀ chunk', w'.Brings c chunk' → chunk' = chunk.saved

/-- A generated chunk that is unloaded will come back. -/
theorem unload_released (h : Serviced f w) (harch : w.Archived m) (hc : w.chunkAt? c = some chunk)
    (hfresh : chunk.isFresh = false) :
    ∃ w', w.unload c = (.ok true, w') ∧ Released w w' c chunk := by
  rcases unload_resident h harch hc with ⟨w₁, w', hunload, hp, hr⟩
  refine ⟨w', hunload, ?_, fun hnone => ?_, hr.intact, fun c' => ?_, fun chunk' hbrings => ?_⟩
  · exact hr.dims.trans hp.setup.dims
  · refine hr.workers ?_
    rw [hp.rest]
    exact hnone
  · rw [hr.chunkAt?, hp.chunkAt?]
  · exact (hp.brings_self h (harch.resident c chunk hc).1 hfresh).1 (hr.brings.1 hbrings)

namespace Released

/-- Once it is back, all chunks are as they were before, but for the state of the one. -/
theorem mirrors (h : Released w w' c chunk) (hc : w.chunkAt? c = some chunk)
    (hset : SetAt w' w'' c chunk.saved) (hdims : w''.dims = w'.dims) : Mirrors w w'' where
  dims := hdims.trans h.dims
  cells c' := by
    by_cases hne : c' = c
    · subst hne
      rw [hset.self, hc]
      rfl
    · rw [hset.other hne, h.chunkAt?, if_neg hne]

/-- It is as finished as it was before. -/
theorem finished (h : Released w w' c chunk) (hc : w.chunkAt? c = some chunk)
    (hset : SetAt w' w'' c chunk.saved) (hfinished : w.Finished c) : w''.Finished c := by
  have hgen : ∀ c', w.Generated c' → w''.Generated c' := by
    rintro c' ⟨chunk', hc', hfresh'⟩
    by_cases hne : c' = c
    · subst hne
      exact ⟨chunk.saved, hset.self, rfl⟩
    · refine ⟨chunk', ?_, hfresh'⟩
      rw [hset.other hne, h.chunkAt?, if_neg hne]
      exact hc'
  refine ⟨⟨hgen c hfinished.surrounded.1, fun o ho => hgen _ (hfinished.surrounded.2 o ho)⟩, ?_⟩
  intro chunk' hc' hfresh'
  rw [hset.self] at hc'
  cases hc'
  rw [Chunk.isLightDirty_saved]
  exact hfinished.spread chunk hc (hfinished.surrounded.1.isFresh hc)

/-- Processing the chunk brings it back, and all shows the same as before. -/
theorem process (h : Released w w' c chunk) (hd : w.dims.Valid) (hc : w.chunkAt? c = some chunk)
    (hfinished : w.Finished c) (hnew : ∀ c e, Chunk.new c w.dims = .error e → faulty)
    (hroom : ¬ Roomy w.dims c → faulty)
    (hjobs : w.workers ≠ none → ¬ Snapshot.Numbered w.dims → faulty) :
    Ensures faulty (w'.process c) fun r => Mirrors w r.2 := by
  rw [← h.dims] at hnew hroom hjobs
  have hnone : w'.chunkAt? c = none := by
    rw [h.chunkAt?, if_pos rfl]
  have hfresh : ∀ chunk', w'.Brings c chunk' → chunk'.isFresh = false := by
    intro chunk' hbrings
    rw [h.brings chunk' hbrings]
    rfl
  -- the chunk comes in finished, so that only its mesh is left to build
  refine (process_of_surrounded (P := fun u => u.store.Intact ∧ Mirrors w u ∧ u.Finished c)
    (Q := Mirrors w) hroom (fun hw => hjobs fun hnone => hw (h.workers hnone)) ?_ ?_).mono ?_
  · apply (generate_brought h.intact hnone hnew hfresh).mono
    rintro r ⟨chunk', hbrought⟩
    have hset := hbrought.setAt
    rw [h.brings chunk' hbrought.brings] at hset
    have hmirrors := h.mirrors hc hset hbrought.dims
    have hfinished' := h.finished hc hset hfinished
    refine ⟨?_, hbrought.toSameBase, hfinished'.surrounded, hbrought.intact, hmirrors, hfinished'⟩
    rw [hmirrors.dims]
    exact hd
  · rintro u - ⟨hintact, hmirrors, hfinished'⟩
    rw [settleLight_of_finished hfinished']
    exact Ensures.ok ⟨SameBase.refl, hintact, hmirrors⟩
  · rintro r ⟨u, hmirrors, hcells⟩
    exact hmirrors.trans hcells.mirrors

end Released

end World

end VoxelWorld
