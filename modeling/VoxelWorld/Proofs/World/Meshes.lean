import VoxelWorld.Proofs.World.Steps

/-!
# Proofs.World.Meshes — the mesh of a clean chunk is never stale

* `Session` is a world beside which we keep, for each chunk, the geometry of the mesh that was
  last installed for it. A call installs at most one mesh for a chunk and uploads none of those
  that it installs, so it is enough to look at the pending meshes after each call.
* `UpToDate` says that this geometry is what the world shows now. A step that a clean chunk
  cannot see does not touch it (`UpToDate.keep`).
* `Current` is what every step keeps: clean chunks have all their neighbours and are up to date.
* So wherever a run of calls has led, the mesh of a clean chunk is what building it again would
  give (`clean_mesh_current`).
-/

namespace VoxelWorld

open Lifecycle (Shown)

namespace World

variable {w w' w₀ : World} {c c' : ChunkCoord} {chunk : Chunk} {life : Lifecycle}
  {installed : ChunkCoord → Option MeshGeometry} {calls : List Call}

/-! ## Noting meshes -/

/-- The geometry that a chunk waits to upload. -/
def pending? (w : World) (c : ChunkCoord) : Option MeshGeometry :=
  (w.chunkAt? c).bind fun chunk => chunk.life.pendingGeometry?

/-- The pending geometry of a chunk, or else what was noted for it before. -/
def noted (w : World) (installed : ChunkCoord → Option MeshGeometry) (c : ChunkCoord) :
    Option MeshGeometry :=
  (w.pending? c).or (installed c)

/-- For a resident chunk its state and what was noted before decide. -/
theorem noted_of_resident (hc : w.chunkAt? c = some chunk) :
    w.noted installed c = chunk.life.pendingGeometry?.or (installed c) := by
  unfold noted pending?
  rw [hc]
  rfl

theorem noted_congr (h : w'.chunkAt? c = w.chunkAt? c) :
    w'.noted installed c = w.noted installed c := by
  unfold noted pending?
  rw [h]

/-- Looking again adds nothing. -/
theorem noted_noted : w.noted (w.noted installed) = w.noted installed := by
  funext c
  unfold noted
  cases w.pending? c with
  | none => rfl
  | some g => rfl

end World

/-- A world, and for each chunk the geometry of the mesh that was last installed for it. -/
structure Session where
  world : World
  installed : ChunkCoord → Option MeshGeometry

namespace Session

variable {s : Session} {w : World} {call : Call} {calls : List Call}

/-- No mesh has been installed yet. -/
def start (w : World) : Session := ⟨w, fun _ => none⟩

def perform (s : Session) (call : Call) : Checked Session := do
  let w ← s.world.perform call
  return ⟨w, w.noted s.installed⟩

def performAll (s : Session) (calls : List Call) : Checked Session := calls.foldlM perform s

/-- Taking note does not get in the way of a run. -/
theorem exists_performAll (h : s.world.performAll calls = .ok w) :
    ∃ s', s.performAll calls = .ok s' ∧ s'.world = w := by
  -- the notes follow the world call by call
  induction calls generalizing s with
  | nil =>
    cases Checked.pure_eq_ok.1 h
    exact ⟨s, rfl, rfl⟩
  | cons call rest ih =>
    unfold World.performAll at h
    rw [List.foldlM_cons] at h
    rcases Checked.bind_eq_ok.1 h with ⟨w₁, hw₁, h⟩
    have hcall : s.perform call = .ok ⟨w₁, w₁.noted s.installed⟩ := by
      unfold perform
      rw [hw₁]
      rfl
    have hrest : ∃ s', Session.performAll ⟨w₁, w₁.noted s.installed⟩ rest = .ok s' ∧
        s'.world = w := ih h
    rcases hrest with ⟨s', hs', hw⟩
    refine ⟨s', ?_, hw⟩
    unfold performAll
    rw [List.foldlM_cons]
    exact Checked.bind_eq_ok.2 ⟨_, hcall, hs'⟩

end Session

namespace World

variable {w w' w₀ : World} {c c' : ChunkCoord} {chunk : Chunk} {life : Lifecycle}
  {installed : ChunkCoord → Option MeshGeometry} {calls : List Call}

/-! ## The invariant -/

/-- The noted mesh of the chunk is what building it now would give. -/
structure UpToDate (w : World) (installed : ChunkCoord → Option MeshGeometry)
    (c : ChunkCoord) : Prop where
  around : w.Surrounded c
  mesh : ∃ g, w.noted installed c = some g ∧ Mesher.build w.registry w c w.dims = .ok g

/-- A mesh stays up to date where nothing changes that it was built from. -/
theorem UpToDate.keep (h : w.UpToDate installed c) (hd : w.dims.Valid) (hrules : SameRules w w')
    (hnoted : w'.noted installed c = w.noted installed c)
    (hsame : ∀ p, Mesher.Reads w.dims c p → w'.field.SameAt w.field p) :
    w'.UpToDate installed c := by
  rcases h.mesh with ⟨g, hg, hbuild⟩
  exact ⟨hrules.surrounded h.around, g, hnoted.trans hg,
    build_of_sameAt hd hrules.dims hrules.registry hsame hbuild⟩

/-- Clean chunks are up to date. -/
structure Current (w : World) (installed : ChunkCoord → Option MeshGeometry) : Prop where
  sound : w.Sound
  clean : ∀ c chunk, w.chunkAt? c = some chunk → chunk.isDirty = false → w.UpToDate installed c

/-- A pristine world has no clean chunks. -/
theorem Pristine.current (h : w.Pristine) : w.Current installed := by
  refine ⟨h.sound, fun c chunk hc => ?_⟩
  rw [h.chunkAt?] at hc
  cases hc

namespace Current

/-- A chunk that is filled is dirty, and the clean ones do not see it. -/
theorem fill (h : w.Current installed) (hf : Filled w w' c) : w'.Current installed := by
  have hd := h.sound.valid
  refine ⟨hf.sound, fun c' chunk' hc' hclean => ?_⟩
  have hne : c' ≠ c := by
    intro heq
    rcases hf.chunk with ⟨chunk, hchunk, hlife⟩
    rw [heq, hchunk] at hc'
    cases hc'
    unfold Chunk.isDirty at hclean
    rw [hlife] at hclean
    cases hclean
  have hat := hf.other c' hne
  rw [hat] at hc'
  have hup := h.clean c' chunk' hc' hclean
  refine hup.keep hd hf.rules (noted_congr hat) fun p hp => ?_
  exact hf.sameAt (hf.unseen hd hup.around hp.1) hd

/-- Who sees a tracked change is dirty. -/
theorem track (h : w.Current installed) (ht : Tracked w w') : w'.Current installed := by
  refine ⟨ht.sound, fun c chunk' hc' hclean' => ?_⟩
  rcases ht.clean_back hc' hclean' with ⟨chunk, hc, hk, hclean⟩
  refine (h.clean c chunk hc hclean).keep h.sound.valid ht.toFramed.rules ?_ fun p hp => ?_
  · rw [noted_of_resident hc', noted_of_resident hc, hk.life]
    rfl
  · exact ht.clean c chunk' hc' hclean' p hp.1

/-- Another state of a chunk changes nothing if it is as dirty as before and nothing is lost that
was not noted. -/
theorem relive (h : w.Current installed) (hr : Relived w w' c chunk life)
    (hrules : SameRules w w') (hc : w.chunkAt? c = some chunk)
    (hdirty : life.dirty = chunk.isDirty)
    (hnoted : life.pendingGeometry?.or (installed c) = w.noted installed c) :
    w'.Current installed := by
  refine ⟨hr.sound, fun c' chunk' hc' hclean' => ?_⟩
  have hsame : ∀ p, Mesher.Reads w.dims c' p → w'.field.SameAt w.field p := by
    intro p _
    rw [hr.field]
    exact LightField.SameAt.refl
  -- the mesh of the chunk itself is noted, and no other chunk reads its state
  by_cases hne : c' = c
  · subst hne
    rw [hr.self] at hc'
    cases hc'
    have hclean : chunk.isDirty = false := hdirty.symm.trans hclean'
    refine (h.clean c' chunk hc hclean).keep h.sound.valid hrules ?_ hsame
    rw [noted_of_resident hr.self]
    exact hnoted
  · have hat := hr.other c' hne
    rw [hat] at hc'
    exact (h.clean c' chunk' hc' hclean').keep h.sound.valid hrules (noted_congr hat) hsame

/-- Relighting marks the chunks that see a difference. -/
theorem light (h : w.Current installed) (hl : Lit w w' c) : w'.Current installed := by
  rcases hl.tracked with ⟨w₁, chunk, htracked, hchunk, hrelived⟩
  refine (h.track htracked).relive hrelived (hrelived.rules hchunk rfl id) hchunk rfl ?_
  rw [noted_of_resident hchunk]
  rfl

/-- The new mesh is noted, and it is what the world shows. -/
theorem mesh {g : MeshGeometry} (h : w.Current installed) (hc : w.Surrounded c)
    (hb : Built w w' c chunk life g) : w'.Current installed := by
  have hd := h.sound.valid
  have hsame : ∀ c' p, Mesher.Reads w.dims c' p → w'.field.SameAt w.field p := by
    intro c' p _
    rw [hb.field]
    exact LightField.SameAt.refl
  refine ⟨hb.sound, fun c' chunk' hc' hclean' => ?_⟩
  -- the chunk that was meshed is up to date from now on
  by_cases hne : c' = c
  · subst hne
    refine ⟨hb.rules.surrounded hc, g, ?_, ?_⟩
    · rw [noted_of_resident hb.self]
      show life.pendingGeometry?.or _ = _
      rw [hb.installed.pending]
      rfl
    · exact build_of_sameAt hd hb.dims hb.registry (hsame c') hb.geometry
  · have hat := hb.other c' hne
    rw [hat] at hc'
    exact (h.clean c' chunk' hc' hclean').keep hd hb.rules (noted_congr hat) (hsame c')

/-- Every step keeps clean chunks up to date. -/
theorem step (h : w.Current installed) (hs : Step w w') : w'.Current installed := by
  cases hs with
  | fill hf => exact h.fill hf
  | edit _ he => exact h.track he.tracked
  | light _ hl => exact h.light hl
  | mesh hc hb => exact h.mesh hc hb

/-- Drawing may upload a mesh, but not before it was noted. -/
theorem draw (h : w.Current installed) (hnoted : w.noted installed = installed)
    (hd : Drawn w w') : w'.Current installed := by
  have hrules := hd.rules h.sound
  cases hd with
  | idle => exact h
  | shown hc hshown hr =>
    refine h.relive hr hrules hc hshown.dirty ?_
    rcases hshown.pending with heq | hnone
    · rw [heq, noted_of_resident hc]
    · rw [hnone, hnoted]
      rfl

/-- Taking note. -/
theorem note (h : w.Current installed) : w.Current (w.noted installed) := by
  refine ⟨h.sound, fun c chunk hc hclean => ?_⟩
  rcases h.clean c chunk hc hclean with ⟨haround, hmesh⟩
  refine ⟨haround, ?_⟩
  rw [noted_noted]
  exact hmesh

end Current

/-! ## Runs -/

/-- What calls keep: clean chunks are up to date, and no pending mesh has been overlooked. -/
theorem current_of_performAll {s : Session} {faulty : Prop} {S : ChunkCoord → Prop}
    (h : Ample faulty S s.world) (hcalls : ∀ call ∈ calls, call.Around faulty s.world.dims S)
    (hcurrent : s.world.Current s.installed) (hnoted : s.world.noted s.installed = s.installed) :
    Ensures faulty (s.performAll calls) fun s' =>
      s'.world.Current s'.installed ∧ s'.world.noted s'.installed = s'.installed := by
  refine (Ensures.foldlM_inv (I := fun s' => Ample faulty S s'.world ∧
    s'.world.dims = s.world.dims ∧ s'.world.Current s'.installed ∧
      s'.world.noted s'.installed = s'.installed) ?_ ⟨h, rfl, hcurrent, hnoted⟩).mono
    fun s' hs' => hs'.2.2
  -- within a call nothing is uploaded, so the note may be taken at its end
  intro call s₁ hmem hs₁
  rcases hs₁ with ⟨h₁, hdims₁, hcurrent₁, hnoted₁⟩
  have hcall := hcalls call hmem
  rw [← hdims₁] at hcall
  apply (perform_ensures h₁ hcall).bind
  intro w₂ hw₂
  rcases hw₂ with ⟨h₂, hperformed⟩
  have hcurrent₂ : w₂.Current s₁.installed := by
    rcases hperformed.induct (I := fun w => w.Current s₁.installed) (fun _ _ hs hw => hw.step hs)
      hcurrent₁ with hkept | hdraw
    · exact hkept
    · exact hcurrent₁.draw hnoted₁ hdraw
  exact Ensures.pure ⟨h₂, (hperformed.rules h₁.sound).dims.trans hdims₁, hcurrent₂.note,
    noted_noted⟩

/-- Wherever calls have led from the empty world, the mesh that was last installed for a clean
chunk is the mesh that the world shows now. -/
theorem clean_mesh_current {s : Session} (h : w₀.Pristine)
    (hcalls : ∀ call ∈ calls, call.Streams)
    (hrun : (Session.start w₀).performAll calls = .ok s)
    (hc : s.world.chunkAt? c = some chunk) (hclean : chunk.isDirty = false) :
    ∃ g, s.installed c = some g ∧
      Mesher.build s.world.registry s.world c s.world.dims = .ok g := by
  have hstart : w₀.noted (fun _ => none) = fun _ => none := by
    funext c
    unfold noted pending?
    rw [h.chunkAt?]
    rfl
  have hall : Ensures True ((Session.start w₀).performAll calls) fun s =>
      s.world.Current s.installed ∧ s.world.noted s.installed = s.installed :=
    current_of_performAll (Ample.of_pristine h) (fun call hcall => (hcalls call hcall).around)
      h.current hstart
  rcases hall.of_eq_ok hrun with ⟨hcurrent, hnoted⟩
  rcases (hcurrent.clean c chunk hc hclean).mesh with ⟨g, hg, hbuild⟩
  rw [hnoted] at hg
  exact ⟨g, hg, hbuild⟩

/-- The mesh of a chunk in which a torch was placed. -/
theorem clean_mesh_current_smallest : ∃ s,
    (Session.start smallest).performAll [.edit ⟨0, 0, 0⟩ 1, .process ⟨0, 0⟩] = .ok s ∧
      ∃ g, s.installed ⟨0, 0⟩ = some g ∧
        Mesher.build s.world.registry s.world ⟨0, 0⟩ s.world.dims = .ok g := by
  rcases smallest.exists_ready with ⟨w, chunk, hrun, hc, -, hclean⟩
  have hsession : ∃ s, (Session.start smallest).performAll
      [.edit ⟨0, 0, 0⟩ 1, .process ⟨0, 0⟩] = .ok s ∧ s.world = w :=
    Session.exists_performAll hrun
  rcases hsession with ⟨s, hs, rfl⟩
  refine ⟨s, hs, clean_mesh_current smallest.pristine ?_ hs hc hclean⟩
  intro call hcall
  rcases List.mem_pair.1 hcall with rfl | rfl
  · trivial
  · trivial

end World

end VoxelWorld
