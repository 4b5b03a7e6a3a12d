import VoxelWorld.Proofs.World.Residents

/-!
# Proofs.World.MeshJobs — a job on a snapshot builds what is built in place

* The mesh of a snapshot is the mesh of what it was made of (`Snapshot.Faithful`): of a chunk
  on its own always (`Chunk.faithful`), of a world unless its chunks have layers but no columns
  (`faithful`). In such a world no snapshot can be taken (`capture_ne_ok`).
* `Lifecycle.meshed` is the state of a chunk whose mesh was built. A build in place leaves it
  (`meshInPlace_eq`), and so does a job that runs to its end before anything else happens
  (`meshByJob_eq`).
* `generateMesh_workers` puts the two together: with builders and without them the chunks and
  the device end up the same.
-/

namespace VoxelWorld

variable {c : ChunkCoord} {p : Pos} {life : Lifecycle} {active pending : Option ChunkMesh}
  {g : MeshGeometry} {gpu : Gpu}

/-! ## Copies of a lone chunk -/

namespace Chunk

variable {chunk : Chunk}

/-- The place of a position that a mesh reads, relative to the chunk. -/
theorem toLocal_eq (hfit : Snapshot.Fits chunk.dims chunk.coord)
    (hp : Mesher.Reads chunk.dims chunk.coord p) : chunk.toLocal p =
      .ok ⟨p.x - chunk.coord.x * chunk.dims.x, p.y, p.z - chunk.coord.z * chunk.dims.z⟩ := by
  have hx := Snapshot.side_le hfit.x_lo hfit.x_hi
  have hz := Snapshot.side_le hfit.z_lo hfit.z_hi
  rcases hp with ⟨⟨hxl, hxh, hzl, hzh⟩, -⟩
  unfold toLocal worldX worldZ ChunkCoord.worldX ChunkCoord.worldZ
  rw [checkCoord_of_fits hfit.corner.1, checkCoord_of_fits hfit.corner.2, hfit.width, hfit.depth]
  simp only [bind, Except.bind]
  rw [checkCoord_of_fits ⟨by omega, by omega⟩, checkCoord_of_fits ⟨by omega, by omega⟩]
  rfl

/-- Around the chunk and above it there is air, and the light of the sky. -/
theorem block_outside {x y z : Int} (h : ¬ chunk.dims.Contains x y z) :
    chunk.block x y z = air ∧ ∀ k, chunk.light x y z k = k.sentinel := by
  unfold block light BlockArray.get
  rw [BlockArray.get?_eq_none h]
  refine ⟨rfl, fun k => ?_⟩
  rw [NibbleArray.get?_eq_none h]
  rfl

/-- The mesh of a copy of a chunk on its own is the mesh of the chunk on its own. -/
theorem faithful (hfit : Snapshot.Fits chunk.dims chunk.coord) :
    Snapshot.Faithful chunk chunk.coord chunk.dims := by
  have hread : ∀ p, Mesher.Reads chunk.dims chunk.coord p → ∃ q : Pos, q.y = p.y ∧
      VoxelView.block chunk p = .ok (chunk.block q.x q.y q.z) ∧
      ∀ k, VoxelView.light chunk p k = .ok (chunk.light q.x q.y q.z k) := by
    intro p hp
    have hplace := toLocal_eq hfit hp
    generalize hx : p.x - chunk.coord.x * chunk.dims.x = x at hplace
    generalize hz : p.z - chunk.coord.z * chunk.dims.z = z at hplace
    exact ⟨⟨x, p.y, z⟩, rfl, Checked.bind_eq_ok.2 ⟨_, hplace, rfl⟩,
      fun k => Checked.bind_eq_ok.2 ⟨_, hplace, rfl⟩⟩
  refine Snapshot.faithful_of_fits hfit (fun p hp _ _ _ => ?_) fun p hp hy => ?_
  · rcases hread p hp with ⟨q, -, hblock, hlight⟩
    exact ⟨_, Snapshot.voxelAt_eq hblock hlight⟩
  · rcases hread p hp with ⟨q, hqy, hblock, hlight⟩
    rw [hfit.height] at hy
    -- above the chunk both read air and the sentinels
    have hnot : ¬ chunk.dims.Contains q.x q.y q.z := by omega
    have hout := block_outside hnot
    rw [hblock, hout.1]
    refine ⟨rfl, fun k => ?_⟩
    rw [hlight, hout.2]

end Chunk

/-! ## Copies of a world -/

namespace World

variable {w : World} {chunk : Chunk}

/-- The mesh of a copy of a chunk and its border is the mesh that the world shows. -/
theorem faithful (hfit : Snapshot.Fits w.dims c)
    (hsides : 0 < w.dims.y → 0 < w.dims.x ∧ 0 < w.dims.z) :
    Snapshot.Faithful w c w.dims := by
  refine Snapshot.faithful_of_fits hfit (fun p hp hy hx hz => ?_) fun p _ hy =>
    ⟨blockAt_above hy, fun k => lightAt_above hy⟩
  have hpos : 0 < w.dims.y := by
    have := hp.2
    omega
  have hd := hfit.valid (hsides hpos).1 hpos (hsides hpos).2
  cases hsplit : p.split w.dims with
  | error e => exact absurd hsplit (Pos.split_ne_error hd hx hz e)
  | ok o =>
    have hread := read_of_split hsplit
    exact ⟨_, Snapshot.voxelAt_eq hread.1 hread.2⟩

/-- Where chunks have layers but no columns, no position of a layer can be looked up. -/
theorem blockAt_ne_ok (hcolumns : w.dims.x = 0 ∨ w.dims.z = 0)
    (hy : 0 ≤ p.y ∧ p.y < w.dims.height) (id : BlockId) : w.blockAt p ≠ .ok id := by
  have hzero : ∀ n a m, n = 0 → divCoord a (sizeAsCoord n) ≠ .ok m := by
    rintro _ a m rfl
    nofun
  intro h
  rcases Checked.bind_eq_ok.1 h with ⟨o, hsplit, -⟩
  unfold Pos.split at hsplit
  rw [if_neg (by omega)] at hsplit
  rcases Checked.bind_eq_ok.1 hsplit with ⟨c, hc, -⟩
  rcases Checked.bind_eq_ok.1 hc with ⟨cx, hcx, hc⟩
  rcases Checked.bind_eq_ok.1 hc with ⟨cz, hcz, -⟩
  rcases hcolumns with hx | hz
  · exact hzero _ _ _ hx hcx
  · exact hzero _ _ _ hz hcz

/-- The border of such a chunk has cells all the same, so copying it stops. -/
theorem capture_ne_ok (hfit : Snapshot.Fits w.dims c) (hy : 0 < w.dims.y)
    (hcolumns : w.dims.x = 0 ∨ w.dims.z = 0) (s : Snapshot) :
    Snapshot.capture w c w.dims ≠ .ok s := by
  intro h
  have hs := Snapshot.capture_spec hfit.width hfit.depth hfit.height h
  have hcells : 0 < s.cells.size := by
    rw [hs.cells.size]
    exact Nat.mul_pos (Nat.mul_pos hy (by omega)) (by omega)
  -- the first cell lies in the lowest layer
  have hfirst := hs.cells.copy 0 _ (Array.getElem?_eq_getElem hcells)
  refine blockAt_ne_ok hcolumns ?_ _ (Snapshot.of_voxelAt hfirst).1
  rw [hfit.height]
  unfold Snapshot.placeOf
  simp only [Nat.zero_div]
  omega

end World

/-! ## The state of a chunk whose mesh was built -/

/-- The new mesh waits to be uploaded, and the chunk is clean. -/
def Lifecycle.meshed (life : Lifecycle) (active : Option ChunkMesh) (g : MeshGeometry) :
    Lifecycle :=
  { life with
    dirty := false
    ticket := life.ticket + 1
    slots := .live active (some (.new g)) }

/-- Installing a mesh replaces the one that was waiting, which is disposed. -/
theorem Lifecycle.installMesh_eq (hslots : life.slots = .live active pending)
    (hfresh : life.fresh = false) :
    life.installMesh (.new g) gpu = (true, life.meshed active g, disposeSlot pending gpu) := by
  rcases life with ⟨dirty, lightDirty, fresh, visible, ticket, slots⟩
  simp only at hslots hfresh
  rw [hslots, hfresh]
  rfl

/-- A job that nothing comes between leaves the state that a build in place leaves. -/
theorem MeshJob.finish_eq {reg : Registry} {snapshot : Snapshot} {workers workers' : MeshWorkers}
    {job : MeshJob} {life' : Lifecycle} {gpu' : Gpu} (hslots : life.slots = .live active pending)
    (hg : Mesher.build reg snapshot snapshot.coord snapshot.dims = .ok g)
    (hsubmit : workers.submit snapshot { life with dirty := false } gpu =
      (job, workers', life', gpu')) :
    job.finish reg life' gpu' = .ok (⟨snapshot.coord, job.id, g.quadCount, true⟩,
      life.meshed active g, Lifecycle.disposeSlot pending gpu) := by
  rcases life with ⟨dirty, lightDirty, fresh, visible, ticket, slots⟩
  simp only at hslots
  rw [hslots] at hsubmit
  cases hsubmit
  refine Checked.bind_eq_ok.2 ⟨g, hg, ?_⟩
  unfold Lifecycle.installIfCurrent
  simp only [if_true]
  rfl

namespace World

variable {w : World} {chunk : Chunk}

/-- Built in place, the mesh is installed with the next ticket. -/
theorem meshInPlace_eq (hslots : life.slots = .live active pending) (hfresh : life.fresh = false)
    (hg : Mesher.build w.registry w c w.dims = .ok g) :
    ∃ w', w.meshInPlace c life = .ok (true, w') ∧
      w'.store = w.store.modifyAt c (fun chunk => { chunk with life := life.meshed active g }) ∧
      w'.gpu = Lifecycle.disposeSlot pending w.gpu := by
  unfold meshInPlace
  rw [hg]
  simp only [bind, Except.bind, Lifecycle.installMesh_eq hslots hfresh, if_true]
  exact ⟨_, rfl, rfl, rfl⟩

/-- Built by a worker, it is installed with the same ticket, since nothing came between. -/
theorem meshByJob_eq (workers : MeshWorkers) {s : Snapshot}
    (hslots : life.slots = .live active pending)
    (hs : Snapshot.capture w c w.dims = .ok s)
    (hg : Mesher.build w.registry s s.coord s.dims = .ok g) :
    ∃ w', w.meshByJob c workers life = .ok w' ∧
      w'.store = w.store.modifyAt c (fun chunk => { chunk with life := life.meshed active g }) ∧
      w'.gpu = Lifecycle.disposeSlot pending w.gpu := by
  unfold meshByJob
  rw [hs]
  cases hsubmit : workers.submit s { life with dirty := false } w.gpu with
  | mk job rest =>
    rcases rest with ⟨workers', life', gpu'⟩
    simp only [bind, Except.bind, hsubmit, MeshJob.finish_eq hslots hg hsubmit]
    exact ⟨_, rfl, rfl, rfl⟩

/-! ## Building with and without builders -/

/-- What a snapshot shows is what it was made of. So a chunk that is meshed by a job, with nothing
in between, ends up like one that is meshed in place, and so does the device. -/
theorem generateMesh_workers :
    (∀ lone : Chunk, Snapshot.Fits lone.dims lone.coord →
      Snapshot.Faithful lone lone.coord lone.dims) ∧
    ∀ (w : World) (c : ChunkCoord) (chunk : Chunk) (workers : MeshWorkers),
      w.chunkAt? c = some chunk → chunk.isFresh = false → chunk.isDisposed = false →
      Snapshot.Fits w.dims c → (0 < w.dims.y → 0 < w.dims.x ∧ 0 < w.dims.z) →
      Snapshot.Faithful w c w.dims ∧
      ∃ g active pending w₀ w₁, Mesher.build w.registry w c w.dims = .ok g ∧
        chunk.life.slots = .live active pending ∧
        { w with workers := none }.generateMesh c = .ok (true, w₀) ∧
        { w with workers := some workers }.generateMesh c = .ok (true, w₁) ∧
        w₀.chunkAt? c = some { chunk with life := chunk.life.meshed active g } ∧
        (chunk.life.meshed active g).phase = .pendingBuild ∧ w₁.store = w₀.store ∧
        w₀.gpu = Lifecycle.disposeSlot pending w.gpu ∧ w₁.gpu = w₀.gpu := by
  refine ⟨fun lone hfit => Chunk.faithful hfit, ?_⟩
  intro w c chunk workers hc hfresh hlive hfit hsides
  have hfaithful := w.faithful hfit hsides
  refine ⟨hfaithful, ?_⟩
  -- one mesh comes of both views, so the two ways end in the same state
  rcases hfaithful with ⟨s, hs, hbuild⟩
  rcases hbuild w.registry with ⟨g, hsg, hg⟩
  rcases Lifecycle.exists_live hlive with ⟨active, pending, hslots⟩
  have hplace := meshInPlace_eq (w := { w with workers := none }) hslots hfresh hg
  have hjob := meshByJob_eq (w := { w with workers := some workers }) workers hslots hs hsg
  rcases hplace with ⟨w₀, hw₀, hstore₀, hgpu₀⟩
  rcases hjob with ⟨w₁, hw₁, hstore₁, hgpu₁⟩
  refine ⟨g, active, pending, w₀, w₁, hg, hslots, ?_, ?_, ?_, rfl, hstore₁.trans hstore₀.symm,
    hgpu₀, hgpu₁.trans hgpu₀.symm⟩
  · rw [generateMesh_eq (w := { w with workers := none }) hc hfresh hlive]
    exact hw₀
  · rw [generateMesh_eq (w := { w with workers := some workers }) hc hfresh hlive]
    exact Checked.bind_eq_ok.2 ⟨w₁, hw₁, rfl⟩
  · show w₀.store.getAt? c = _
    rw [hstore₀]
    exact ChunkStore.getAt?_modifyAt_self hc _

/-- A chunk of one cell, on its own and in a world. -/
theorem generateMesh_workers_smallest : ∃ (w : World) (chunk : Chunk),
    w.chunkAt? ⟨0, 0⟩ = some chunk ∧ Snapshot.Faithful chunk chunk.coord chunk.dims ∧
      Snapshot.Faithful w ⟨0, 0⟩ w.dims ∧
      ∃ g w₀ w₁, { w with workers := none }.generateMesh ⟨0, 0⟩ = .ok (true, w₀) ∧
        { w with workers := some (.new 1) }.generateMesh ⟨0, 0⟩ = .ok (true, w₁) ∧
        w₁.chunkAt? ⟨0, 0⟩ = some { chunk with life := chunk.life.meshed none g } := by
  rcases exists_generated (d := ⟨1, 1, 1⟩) none ⟨_, rfl⟩ with
    ⟨w, chunk, hd, -, -, hone, hcoord, hdims, hlife⟩
  have hc : w.chunkAt? ⟨0, 0⟩ = some chunk := hone ⟨0, 0⟩
  have hfit : Snapshot.Fits ⟨1, 1, 1⟩ ⟨0, 0⟩ :=
    ⟨by decide, by decide, by decide, by decide, by decide⟩
  have hlone : Snapshot.Fits chunk.dims chunk.coord := by
    rw [hcoord, hdims]
    exact hfit
  rcases generateMesh_workers.2 w ⟨0, 0⟩ chunk (.new 1) hc (congrArg Lifecycle.fresh hlife)
    (congrArg Lifecycle.isDisposed hlife) (by rw [hd]; exact hfit) (fun _ => by rw [hd]; decide)
    with ⟨hfaithful, g, active, pending, w₀, w₁, -, hslots, hw₀, hw₁, hchunk, -, hstore, -⟩
  -- no mesh was shown before
  have hactive : active = none := by
    rw [hlife] at hslots
    cases hslots
    rfl
  subst hactive
  refine ⟨w, chunk, hc, generateMesh_workers.1 chunk hlone, hfaithful, g, w₀, w₁, hw₀, hw₁, ?_⟩
  show w₁.store.getAt? ⟨0, 0⟩ = _
  rw [hstore]
  exact hchunk

/-- Five layers of rows without a column: there is a mesh, an empty one, but no snapshot. -/
theorem exists_no_snapshot : ∃ (w : World) (chunk : Chunk),
    w.chunkAt? ⟨0, 0⟩ = some chunk ∧ chunk.isFresh = false ∧ chunk.isDisposed = false ∧
      Snapshot.Fits w.dims ⟨0, 0⟩ ∧ Mesher.build w.registry w ⟨0, 0⟩ w.dims = .ok .empty ∧
      ∀ s, Snapshot.capture w ⟨0, 0⟩ w.dims ≠ .ok s := by
  rcases exists_generated (d := ⟨0, 5, 3⟩) none ⟨_, rfl⟩ with
    ⟨w, chunk, hd, -, -, hone, -, -, hlife⟩
  have hfit : Snapshot.Fits w.dims ⟨0, 0⟩ := by
    rw [hd]
    exact ⟨by decide, by decide, by decide, by decide, by decide⟩
  refine ⟨w, chunk, hone ⟨0, 0⟩, congrArg Lifecycle.fresh hlife,
    congrArg Lifecycle.isDisposed hlife, hfit,
    ?_, ?_⟩
  · exact Mesher.build_of_empty hfit.corner.1 hfit.corner.2 (.inl (by rw [hd]))
  · exact capture_ne_ok hfit (by rw [hd]; decide) (.inl (by rw [hd]))

end World

end VoxelWorld
