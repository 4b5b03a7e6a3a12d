import VoxelWorld.Proofs.Lifecycle
import VoxelWorld.Proofs.Mesh.Snapshot
import VoxelWorld.Proofs.World.Relight
import VoxelWorld.World.Meshing

/-!
# Proofs.World.Meshing — building and drawing the mesh of a chunk

* Worlds whose fields agree at a position are the same view there (`agree_of_sameAt`).
* `Built` is what building a mesh does: the geometry of the chunk as the world shows it becomes
  the pending one, and the chunk is clean. It makes no difference whether the mesh is built in
  place or by a job on a snapshot (`generateMesh_ensures`).
* `Drawn` is what uploading, swapping and drawing do.
-/

namespace VoxelWorld.World

open Lifecycle (Installed Shown)

variable {w w' : World} {c : ChunkCoord} {chunk : Chunk} {life : Lifecycle} {p : Pos}
  {k : LightKind} {g : MeshGeometry} {faulty : Prop}

/-! ## Reading for a mesh -/

/-- Above the world light is what the sentinel says. -/
theorem lightAt_above (h : w.dims.height ≤ p.y) : w.lightAt p k = .ok k.sentinel := by
  unfold lightAt
  rw [if_pos h]
  rfl

/-- Above the world there is air. -/
theorem blockAt_above (h : w.dims.height ≤ p.y) : w.blockAt p = .ok air := by
  have hnone : p.split w.dims = .ok none := if_pos (.inr h)
  unfold blockAt
  rw [hnone]
  rfl

/-- Where a position can be looked up, reading gives what the field shows. -/
theorem read_of_split {o : Option Cell} (h : p.split w.dims = .ok o) :
    w.blockAt p = .ok (w.field.block p) ∧ ∀ k, w.lightAt p k = .ok (w.field.level k p) := by
  have hread : ∀ {α : Type} {m : Checked α} {d : α}, (∃ a, m = .ok a) →
      m = .ok (m.toOption.getD d) := by
    intro α m d hm
    rcases hm with ⟨a, rfl⟩
    rfl
  constructor
  · apply hread
    cases o with
    | none =>
      refine ⟨air, ?_⟩
      unfold blockAt
      rw [h]
      rfl
    | some cell => exact ⟨_, blockAt_of_split h⟩
  · intro k
    apply hread
    -- light is asked for above the world too, where there is no cell
    by_cases hy : w.dims.height ≤ p.y
    · refine ⟨k.sentinel, ?_⟩
      unfold lightAt
      rw [if_pos hy]
      rfl
    · cases o with
      | none =>
        refine ⟨0, ?_⟩
        unfold lightAt
        rw [if_neg hy, h]
        rfl
      | some cell => exact ⟨_, lightAt_of_below hy h⟩

/-- Worlds that show the same at a position are the same view there. -/
theorem agree_of_sameAt (hdims : w'.dims = w.dims) (hsame : w'.field.SameAt w.field p) :
    Mesher.Agree w w' p := by
  have hsplit : ∀ o, p.split w.dims = .ok o → p.split w'.dims = .ok o := by
    intro o ho
    rw [hdims]
    exact ho
  constructor
  · intro b hb
    show w'.blockAt p = .ok b
    have hread : w.blockAt p = .ok b := hb
    unfold blockAt at hread
    rcases Checked.bind_eq_ok.1 hread with ⟨o, ho, -⟩
    rw [(read_of_split (hsplit o ho)).1, hsame.block, ← (read_of_split ho).1]
    exact hb
  · intro k l hl
    show w'.lightAt p k = .ok l
    have hread : w.lightAt p k = .ok l := hl
    -- above the world reading does not ask for a chunk
    by_cases hy : w.dims.height ≤ p.y
    · rw [lightAt_above hy] at hread
      rw [lightAt_above (by rw [hdims]; exact hy), hread]
    · unfold lightAt at hread
      rw [if_neg hy] at hread
      rcases Checked.bind_eq_ok.1 hread with ⟨o, ho, -⟩
      rw [(read_of_split (hsplit o ho)).2, hsame.level, ← (read_of_split ho).2]
      exact hl

/-- A mesh does not change as long as no position changes that it is built from. -/
theorem build_of_sameAt (hd : w.dims.Valid) (hdims : w'.dims = w.dims)
    (hregistry : w'.registry = w.registry)
    (hsame : ∀ p, Mesher.Reads w.dims c p → w'.field.SameAt w.field p)
    (hg : Mesher.build w.registry w c w.dims = .ok g) :
    Mesher.build w'.registry w' c w'.dims = .ok g := by
  rw [hregistry, hdims]
  exact Mesher.build_refines hd (fun p hp => agree_of_sameAt hdims (hsame p hp)) g hg

/-- A mesh of the world stops only where the chunk has no room. -/
theorem build_world_ensures (hd : w.dims.Valid) (hroom : ¬ Roomy w.dims c → faulty) :
    Ensures faulty (Mesher.build w.registry w c w.dims) fun _ => True := by
  refine Mesher.build_ensures hd hroom fun p _ hx hz => ⟨?_, fun k => ?_⟩
  · exact Ensures.intro (fun _ _ => trivial) fun e he => absurd he (blockAt_ne_error hx hz hd e)
  · exact Ensures.intro (fun _ _ => trivial) fun e he => absurd he (lightAt_ne_error hx hz hd e)

/-! ## Building -/

/-- The mesh of a chunk as the world shows it was installed. -/
structure Built (w w' : World) (c : ChunkCoord) (chunk : Chunk) (life : Lifecycle)
    (g : MeshGeometry) : Prop extends Relived w w' c chunk life where
  was : w.chunkAt? c = some chunk
  installed : Installed chunk.life life g
  geometry : Mesher.build w.registry w c w.dims = .ok g

/-- A mesh of the world as it is, installed in its chunk. -/
theorem built_of_store (h : w.Sound) (hc : w.chunkAt? c = some chunk)
    (hfresh : chunk.isFresh = false) (hinstalled : Installed chunk.life life g)
    (hg : Mesher.build w.registry w c w.dims = .ok g)
    (hstore : w'.store = w.store.modifyAt c fun chunk => { chunk with life })
    (hconfig : w'.config = w.config) (hregistry : w'.registry = w.registry)
    (hgenerators : w'.generators = w.generators) (hworkers : w.workers = none → w'.workers = none)
    (hfiles : w'.files = w.files) : Built w w' c chunk life g where
  toRelived := by
    refine relived_of_store h hc (f := fun chunk => { chunk with life }) rfl hstore hconfig
      hregistry hgenerators hworkers hfiles hinstalled.fresh fun hf => ?_
    rw [hfresh] at hf
    cases hf
  was := hc
  installed := hinstalled
  geometry := hg

/-- Built in place the mesh is installed at once. -/
theorem meshInPlace_ensures (h : w.Sound) (hroom : ¬ Roomy w.dims c → faulty)
    (hc : w.chunkAt? c = some chunk) (hfresh : chunk.isFresh = false)
    (hlive : chunk.isDisposed = false) :
    Ensures faulty (w.meshInPlace c chunk.life) fun r => ∃ life g, Built w r.2 c chunk life g := by
  unfold meshInPlace
  apply (build_world_ensures h.valid hroom).and_eq_ok.bind
  intro g hg
  have hspec : ∃ life gpu, chunk.life.installMesh (.new g) w.gpu = (true, life, gpu) ∧
      Installed chunk.life life g := Lifecycle.installMesh_spec hfresh hlive
  rcases hspec with ⟨life, gpu, heq, hinstalled⟩
  rw [heq]
  simp only [if_true]
  refine Ensures.pure ⟨life, g, ?_⟩
  exact built_of_store h hc hfresh hinstalled hg.2 rfl rfl rfl rfl id rfl

/-- The job works on a copy, which shows what the world shows. -/
theorem meshByJob_ensures (h : w.Sound) (hfaulty : faulty) (hc : w.chunkAt? c = some chunk)
    (hfresh : chunk.isFresh = false) (hlive : chunk.isDisposed = false) {workers : MeshWorkers}
    (hworkers : w.workers = some workers) :
    Ensures faulty (w.meshByJob c workers chunk.life) fun w' =>
      ∃ life g, Built w w' c chunk life g := by
  unfold meshByJob
  refine Ensures.bind (P := fun s => Snapshot.capture w c w.dims = .ok s)
    (Ensures.intro (fun _ hs => hs) fun _ _ => hfaulty) fun snapshot hcapture => ?_
  have hs := Snapshot.capture_spec h.valid.width h.valid.depth h.valid.height hcapture
  -- the copy agrees with the world on all that a mesh reads
  have hsame : Refines (Mesher.build w.registry snapshot c w.dims)
      (Mesher.build w.registry w c w.dims) :=
    Mesher.build_refines h.valid fun p hp =>
      Snapshot.agree_of_capture h.valid hs hp fun hy =>
        ⟨blockAt_above hy, fun k => lightAt_above hy⟩
  have hbuild : Ensures faulty (Mesher.build w.registry snapshot snapshot.coord snapshot.dims)
      fun g => Mesher.build w.registry w c w.dims = .ok g := by
    rw [hs.coord, hs.dims]
    exact Ensures.intro hsame fun _ _ => hfaulty
  -- the job runs to its end before anything else happens
  cases hsubmit : workers.submit snapshot { chunk.life with dirty := false } w.gpu with
  | mk job rest =>
    rcases rest with ⟨workers', life', gpu'⟩
    apply (MeshJob.finish_ensures hlive hbuild hsubmit).bind
    intro r hr
    rcases hr with ⟨g, hg, hinstalled⟩
    refine Ensures.pure ⟨r.2.1, g, ?_⟩
    refine built_of_store h hc hfresh hinstalled hg rfl rfl rfl rfl (fun hnone => ?_) rfl
    rw [hworkers] at hnone
    cases hnone

/-- A generated chunk that is not disposed gets a mesh, from the workers if there are some. -/
theorem generateMesh_eq (hc : w.chunkAt? c = some chunk) (hfresh : chunk.isFresh = false)
    (hlive : chunk.isDisposed = false) : w.generateMesh c =
      match w.workers with
      | some workers => do return (true, ← w.meshByJob c workers chunk.life)
      | none => w.meshInPlace c chunk.life := by
  have hbuilds : ¬ (chunk.isFresh || chunk.isDisposed) = true := by
    rw [hfresh, hlive]
    exact Bool.false_ne_true
  unfold generateMesh
  rw [hc]
  exact if_neg hbuilds

/-- The mesh of a chunk that was not disposed of is installed. -/
theorem generateMesh_ensures (h : w.Sound) (hroom : ¬ Roomy w.dims c → faulty)
    (hworkers : w.workers ≠ none → faulty) (hc : w.chunkAt? c = some chunk)
    (hfresh : chunk.isFresh = false) (hlive : chunk.isDisposed = false) :
    Ensures faulty (w.generateMesh c) fun r => ∃ life g, Built w r.2 c chunk life g := by
  rw [generateMesh_eq hc hfresh hlive]
  cases hw : w.workers with
  | none => exact meshInPlace_ensures h hroom hc hfresh hlive
  | some workers =>
    have hfaulty : faulty := by
      apply hworkers
      rw [hw]
      nofun
    apply (meshByJob_ensures h hfaulty hc hfresh hlive hw).bind
    intro w' hbuilt
    exact Ensures.pure hbuilt

/-! ## Drawing -/

/-- Nothing happened, or the meshes of one chunk were uploaded, swapped or drawn. -/
inductive Drawn (w : World) : World → Prop
  | idle : Drawn w w
  | shown {c : ChunkCoord} {chunk : Chunk} {life : Lifecycle} {w' : World} :
      w.chunkAt? c = some chunk → Shown chunk.life life → Relived w w' c chunk life → Drawn w w'

/-- Showing meshes changes nothing that can be read off the world. -/
theorem modifyLife_drawn {α : Type} (h : w.Sound) {f : Lifecycle → Gpu → α × Lifecycle × Gpu}
    (hf : ∀ life gpu, Shown life (f life gpu).2.1) : Drawn w (w.modifyLife c f).2 := by
  unfold modifyLife
  cases hc : w.chunkAt? c with
  | none => exact .idle
  | some chunk =>
    have hshown := hf chunk.life w.gpu
    refine .shown hc hshown (relived_of_store h hc rfl rfl rfl rfl rfl id rfl hshown.fresh ?_)
    intro hfresh
    apply hshown.idle
    unfold Lifecycle.pendingMesh?
    rw [(h.fresh c chunk hc hfresh).life]
    rfl

/-- Uploading is drawing in this sense. -/
theorem generateBuffers_drawn (h : w.Sound) : Drawn w (w.generateBuffers c) :=
  modifyLife_drawn h fun _ _ => Lifecycle.generate_shown

/-- Swapping the pending mesh in is part of drawing. -/
theorem update_drawn (h : w.Sound) : Drawn w (w.update c).2 :=
  modifyLife_drawn h fun _ _ => Lifecycle.update_shown

/-- The draw calls are part of drawing. -/
theorem render_drawn (h : w.Sound) (pass : Pass) : Drawn w (w.render pass c) :=
  modifyLife_drawn h fun _ _ => Shown.refl

end VoxelWorld.World
