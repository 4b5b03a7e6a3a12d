import VoxelWorld.Mesh.Job
import VoxelWorld.Proofs.Ensures

/-!
# Proofs.Lifecycle — the pending mesh of a chunk

* `pendingGeometry?` is the geometry that waits to be uploaded.
* `Installed` is what installing a mesh does. A mesh that is built in place is installed, and
  so is one that is built by a job, if the job is finished before the next one starts
  (`installMesh_spec`, `finish_ensures`).
* `Shown` is what uploading and swapping do: no flag changes, and the pending geometry stays
  or is gone.
-/

namespace VoxelWorld

namespace Lifecycle

variable {s s' s'' : Lifecycle} {g : MeshGeometry} {m : ChunkMesh} {gpu : Gpu}

/-- The geometry of the pending mesh, unless it was uploaded. -/
def pendingGeometry? (s : Lifecycle) : Option MeshGeometry :=
  s.pendingMesh?.bind ChunkMesh.geometry

/-- A chunk that is not disposed has its two slots. -/
theorem exists_live (h : s.isDisposed = false) :
    ∃ active pending, s.slots = .live active pending := by
  unfold isDisposed at h
  cases hs : s.slots with
  | live active pending => exact ⟨active, pending, rfl⟩
  | disposed =>
    rw [hs] at h
    cases h

/-! ## Installing -/

/-- A mesh became the pending one, and the chunk is clean. -/
structure Installed (s s' : Lifecycle) (g : MeshGeometry) : Prop where
  dirty : s'.dirty = false
  lightDirty : s'.lightDirty = s.lightDirty
  fresh : s'.fresh = s.fresh
  live : s'.isDisposed = false
  pending : s'.pendingGeometry? = some g

/-- A generated chunk takes a mesh that was just built. -/
theorem installMesh_spec (hfresh : s.fresh = false) (hlive : s.isDisposed = false) :
    ∃ s' gpu', s.installMesh (.new g) gpu = (true, s', gpu') ∧ Installed s s' g := by
  rcases exists_live hlive with ⟨active, pending, hslots⟩
  rcases s with ⟨dirty, lightDirty, fresh, visible, ticket, slots⟩
  simp only at hfresh hslots
  rw [hfresh, hslots]
  exact ⟨_, _, rfl, rfl, rfl, rfl, rfl, rfl⟩

/-- Two states say the same of generation and of light. -/
def SameFlags (s s' : Lifecycle) : Prop := s'.fresh = s.fresh ∧ s'.lightDirty = s.lightDirty

/-- Installing a mesh, or failing to, says nothing of generation and light. -/
theorem installMesh_sameFlags : SameFlags s (s.installMesh m gpu).2.1 := by
  rcases s with ⟨dirty, lightDirty, fresh, visible, ticket, slots⟩
  unfold installMesh
  cases fresh with
  | true => exact ⟨rfl, rfl⟩
  | false => cases slots <;> exact ⟨rfl, rfl⟩

/-- Handing out a ticket leaves the flags alone. -/
theorem beginMesh_sameFlags : SameFlags s (s.beginMesh gpu).2.1 := by
  unfold beginMesh
  split <;> exact ⟨rfl, rfl⟩

/-- Taking a mesh back keeps the flags, whether the ticket is current or not. -/
theorem installIfCurrent_sameFlags {ticket : Nat} :
    SameFlags s (s.installIfCurrent ticket m gpu).2.1 := by
  unfold installIfCurrent
  split
  · exact ⟨rfl, rfl⟩
  · split <;> exact ⟨rfl, rfl⟩

/-! ## Drawing -/

/-- What drawing a chunk does to its state. -/
structure Shown (s s' : Lifecycle) : Prop where
  dirty : s'.dirty = s.dirty
  lightDirty : s'.lightDirty = s.lightDirty
  fresh : s'.fresh = s.fresh
  disposed : s'.isDisposed = s.isDisposed
  pending : s'.pendingGeometry? = s.pendingGeometry? ∨ s'.pendingGeometry? = none
  /-- Without a pending mesh there is nothing to do. -/
  idle : s.pendingMesh? = none → s' = s

theorem Shown.refl : Shown s s := ⟨rfl, rfl, rfl, rfl, .inl rfl, fun _ => rfl⟩

/-- Uploading keeps the geometry only if there was nothing to upload. -/
theorem geometry_generate :
    (m.generate gpu).1.geometry = m.geometry ∨ (m.generate gpu).1.geometry = none := by
  unfold ChunkMesh.generate
  split
  · exact .inl rfl
  · right
    split
    · assumption
    · rfl

/-- Uploading the pending mesh is part of drawing. -/
theorem generate_shown : Shown s (s.generate gpu).1 := by
  unfold generate
  split
  · rename_i active p hslots
    split
    · exact Shown.refl
    · -- only the pending mesh is another one, so it is left to look at this slot
      refine ⟨rfl, rfl, rfl, ?_, ?_, fun hnone => ?_⟩
      · unfold isDisposed
        rw [hslots]
      · have hp : s.pendingGeometry? = p.geometry := by
          unfold pendingGeometry? pendingMesh?
          rw [hslots]
          rfl
        rw [hp]
        exact geometry_generate
      · unfold pendingMesh? at hnone
        rw [hslots] at hnone
        cases hnone
  · exact Shown.refl

/-- Moving the pending mesh over to the active slot, where it is ready, is part of drawing. -/
theorem update_shown : Shown s (s.update gpu).2.1 := by
  unfold update
  split
  · exact Shown.refl
  · split
    · rename_i active p hslots
      split
      · refine ⟨rfl, rfl, rfl, ?_, .inr rfl, fun hnone => ?_⟩
        · unfold isDisposed
          rw [hslots]
        · unfold pendingMesh? at hnone
          rw [hslots] at hnone
          cases hnone
      · exact Shown.refl
    · exact Shown.refl

end Lifecycle

/-! ## Jobs -/

variable {faulty : Prop} {reg : Registry} {workers : MeshWorkers} {snapshot : Snapshot}
  {life : Lifecycle} {gpu : Gpu} {P : MeshGeometry → Prop}

/-- A job that is finished before the next one starts has the last ticket, so its mesh is
installed. -/
theorem MeshJob.finish_ensures (hlive : life.isDisposed = false)
    (hbuild : Ensures faulty (Mesher.build reg snapshot snapshot.coord snapshot.dims) P)
    {job : MeshJob} {workers' : MeshWorkers} {life' : Lifecycle} {gpu' : Gpu}
    (hsubmit : workers.submit snapshot { life with dirty := false } gpu =
      (job, workers', life', gpu')) :
    Ensures faulty (job.finish reg life' gpu') fun r =>
      ∃ g, P g ∧ Lifecycle.Installed life r.2.1 g := by
  rcases Lifecycle.exists_live hlive with ⟨active, pending, hslots⟩
  rcases life with ⟨dirty, lightDirty, fresh, visible, ticket, slots⟩
  simp only at hslots
  rw [hslots] at hsubmit
  cases hsubmit
  unfold MeshJob.finish
  apply hbuild.bind
  intro g hg
  unfold Lifecycle.installIfCurrent
  simp only [if_true]
  exact Ensures.pure ⟨g, hg, rfl, rfl, rfl, rfl, rfl⟩

end VoxelWorld
