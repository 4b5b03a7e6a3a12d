import VoxelWorld.Proofs.Mesh.Slots
import Mathlib.Data.List.Perm.Basic

/-!
# Proofs.Mesh.Handover — meshes between their owner and a chunk

* `Handover` is one chunk, its device and the meshes that their owner has not handed over yet.
  `Act` are the things that can be done, in any order; `run` does a list of them.
* A mesh is handed over once, uploaded or not, disposed or not. A fresh chunk ignores a mesh that
  was built in place; these meshes are `ignored`.
* `Accounted` is what every act keeps: each live buffer belongs to one mesh, which is in a slot,
  with its owner, or ignored.
* `buffers_accounted` is the result for whole runs: nothing is released twice, nothing is drawn
  that is not live, and nothing leaks but the buffers of ignored meshes. `ignored_mesh_leaks` is a
  run in which those do.
* `active_mesh_presentable` is what drawing code may rely on: it never meets a mesh that is not
  uploaded or was disposed, and a mesh is promoted exactly when it is due.
-/

namespace VoxelWorld

/-- The buffers of some meshes. -/
def buffersOf (meshes : List ChunkMesh) : List Nat := meshes.flatMap ChunkMesh.buffers

/-- One chunk, its device, and the meshes that are not in its slots. -/
structure Handover where
  life : Lifecycle := .new
  gpu : Gpu := .new
  /-- Meshes that were not handed over yet. -/
  held : List ChunkMesh := []
  /-- Meshes that were handed over and that a fresh chunk did not take. -/
  ignored : List ChunkMesh := []

namespace Handover

/-- What can be done. A number stands for the held mesh at that place. -/
inductive Act
  | build (g : MeshGeometry)
  | uploadHeld (i : Nat)
  | disposeHeld (i : Nat)
  | setNewMesh (i : Nat)
  | beginMesh
  | installIfCurrent (ticket i : Nat)
  | installMesh (i : Nat)
  | generate
  | update
  | render (pass : Pass)
  | dispose
  | setFlags (dirty lightDirty fresh visible : Bool)

/-- Changes a mesh that is still held. -/
def change (s : Handover) (i : Nat) (f : ChunkMesh → Gpu → ChunkMesh × Gpu) : Handover :=
  match s.held[i]? with
  | none => s
  | some m => { s with gpu := (f m s.gpu).2, held := s.held.set i (f m s.gpu).1 }

/-- Hands a mesh over; its owner has it no more. -/
def give (s : Handover) (i : Nat) (f : ChunkMesh → Handover) : Handover :=
  match s.held[i]? with
  | none => s
  | some m => { f m with held := s.held.eraseIdx i }

def perform (s : Handover) : Act → Handover
  | .build g => { s with held := .new g :: s.held }
  | .uploadHeld i => s.change i ChunkMesh.generate
  | .disposeHeld i => s.change i ChunkMesh.dispose
  | .setNewMesh i => s.give i fun m =>
    let (life, gpu) := s.life.setNewMesh m s.gpu
    { s with life, gpu }
  | .beginMesh =>
    let (_, life, gpu) := s.life.beginMesh s.gpu
    { s with life, gpu }
  | .installIfCurrent ticket i => s.give i fun m =>
    let (_, life, gpu) := s.life.installIfCurrent ticket m s.gpu
    { s with life, gpu }
  | .installMesh i => s.give i fun m =>
    let (taken, life, gpu) := s.life.installMesh m s.gpu
    { s with life, gpu, ignored := if taken then s.ignored else m :: s.ignored }
  | .generate =>
    let (life, gpu) := s.life.generate s.gpu
    { s with life, gpu }
  | .update =>
    let (_, life, gpu) := s.life.update s.gpu
    { s with life, gpu }
  | .render pass => { s with gpu := s.life.render pass s.gpu }
  | .dispose =>
    let (life, gpu) := s.life.dispose s.gpu
    { s with life, gpu }
  | .setFlags dirty lightDirty fresh visible =>
    { s with life := { s.life with dirty, lightDirty, fresh, visible } }

/-- What a list of acts makes of a new chunk. -/
def run (acts : List Act) : Handover := acts.foldl perform {}

variable {s : Handover} {life : Lifecycle} {gpu : Gpu} {m : ChunkMesh} {i b : Nat}
  {held : List ChunkMesh}

/-! ## Counting buffers -/

/-- Taking a mesh out of a list takes its buffers out. -/
theorem count_held (h : held[i]? = some m) : (buffersOf held).count b =
    m.buffers.count b + (buffersOf (held.eraseIdx i)).count b := by
  rcases List.getElem?_eq_some_iff.1 h with ⟨hi, rfl⟩
  have hperm := (List.getElem_cons_eraseIdx_perm hi).flatMap_right ChunkMesh.buffers
  unfold buffersOf
  rw [← hperm.count_eq, List.flatMap_cons, List.count_append]

/-- Changing a mesh of a list changes its buffers alone. -/
theorem count_held_set (h : held[i]? = some m) (m' : ChunkMesh) :
    (buffersOf (held.set i m')).count b =
      m'.buffers.count b + (buffersOf (held.eraseIdx i)).count b := by
  rcases List.getElem?_eq_some_iff.1 h with ⟨hi, -⟩
  rw [count_held (List.getElem?_set_self hi), List.eraseIdx_set_eq]

/-! ## The invariant -/

/-- Each live buffer belongs to one mesh, and the active mesh can be drawn. -/
structure Accounted (s : Handover) : Prop where
  holds : s.life.Holds s.gpu (buffersOf s.ignored ++ buffersOf s.held)
  sound : ∀ m ∈ s.held, m.Sound
  presentable : s.life.Presentable

namespace Accounted

theorem start : Accounted {} where
  holds := ⟨nofun, nofun, Gpu.lent_new⟩
  sound := nofun
  presentable := nofun

/-- A mesh that was built has no buffers yet. -/
theorem build (h : s.Accounted) (g : MeshGeometry) :
    Accounted { s with held := .new g :: s.held } where
  holds := h.holds
  sound := by
    intro m hm
    rcases List.mem_cons.1 hm with rfl | hold
    · exact .new g
    · exact h.sound m hold
  presentable := h.presentable

/-- Nothing was handed over. -/
theorem serve (h : s.Accounted) (hmoves : Lifecycle.Moves none s.life s.gpu life gpu) :
    Accounted { s with life, gpu } where
  holds := h.holds.moves (fun _ hm => by cases hm) hmoves
  sound := h.sound
  presentable := h.presentable.moves hmoves

/-- The chunk took a mesh, or disposed it. -/
theorem give (h : s.Accounted) (hi : s.held[i]? = some m)
    (hmoves : Lifecycle.Moves (some m) s.life s.gpu life gpu) :
    Accounted { s with life, gpu, held := s.held.eraseIdx i } where
  holds := by
    have hm : m.Sound := h.sound m (List.mem_of_getElem? hi)
    refine Lifecycle.Holds.moves ?_ (fun _ heq => Option.some.inj heq ▸ hm) hmoves
    refine { h.holds with lent := h.holds.lent.of_count fun b => ?_ }
    simp only [List.count_append, slotBuffers_some, count_held hi]
    omega
  sound m hm := h.sound m (List.mem_of_mem_eraseIdx hm)
  presentable := h.presentable.moves hmoves

/-- The chunk ignored a mesh. -/
theorem ignore (h : s.Accounted) (hi : s.held[i]? = some m) :
    Accounted { s with held := s.held.eraseIdx i, ignored := m :: s.ignored } where
  holds := by
    refine { h.holds with lent := h.holds.lent.of_count fun b => ?_ }
    have hcons : buffersOf (m :: s.ignored) = m.buffers ++ buffersOf s.ignored := rfl
    simp only [List.count_append, count_held hi, hcons]
    omega
  sound m hm := h.sound m (List.mem_of_mem_eraseIdx hm)
  presentable := h.presentable

/-- Its owner uploaded or disposed a mesh. -/
theorem change (h : s.Accounted) {f : ChunkMesh → Gpu → ChunkMesh × Gpu}
    (hsound : ∀ m gpu, m.Sound → (f m gpu).1.Sound)
    (hlent : ∀ m gpu rest, m.Sound → gpu.Lent (m.buffers ++ rest) →
      (f m gpu).2.Lent ((f m gpu).1.buffers ++ rest)) : Accounted (s.change i f) := by
  unfold Handover.change
  split
  · exact h
  · rename_i m hi
    have hm : m.Sound := h.sound m (List.mem_of_getElem? hi)
    refine ⟨{ h.holds with lent := ?_ }, fun m' hm' => ?_, h.presentable⟩
    · -- the mesh comes to the front of the list, and goes back when it is done
      have hfront : s.gpu.Lent (m.buffers ++ (s.life.buffers ++
          (buffersOf s.ignored ++ buffersOf (s.held.eraseIdx i)))) :=
        h.holds.lent.of_count fun b => by
          simp only [List.count_append, count_held hi]
          omega
      exact (hlent m s.gpu _ hm hfront).of_count fun b => by
        simp only [List.count_append, count_held_set hi]
        omega
    · rcases List.mem_or_eq_of_mem_set hm' with hold | rfl
      · exact h.sound m' hold
      · exact hsound m s.gpu hm

/-- Handing over a mesh that is not held does nothing. -/
theorem handed (h : s.Accounted) {f : ChunkMesh → Handover}
    (hf : ∀ m, s.held[i]? = some m → Accounted { f m with held := s.held.eraseIdx i }) :
    Accounted (s.give i f) := by
  unfold Handover.give
  split
  · exact h
  · exact hf _ ‹_›

/-- A fresh chunk leaves the mesh with the ignored ones, any other one takes it. -/
theorem installMesh (h : s.Accounted) (i : Nat) : (s.perform (.installMesh i)).Accounted := by
  refine h.handed fun m hi => ?_
  cases hfresh : s.life.fresh with
  | true =>
    simp only [Lifecycle.installMesh_of_fresh hfresh]
    exact h.ignore hi
  | false =>
    simp only [Lifecycle.installMesh_taken hfresh, if_true]
    exact h.give hi (Lifecycle.installMesh_moves hfresh)

/-- Every act keeps the account. -/
theorem perform (h : s.Accounted) (act : Act) : (s.perform act).Accounted := by
  -- what is done to held meshes concerns the device alone; the rest moves the slots
  cases act with
  | build g => exact h.build g
  | uploadHeld i =>
    exact h.change (fun _ _ hm => hm.generate) fun _ _ _ hm hl => hm.generate_lent hl
  | disposeHeld i =>
    refine h.change (fun _ _ hm => hm.dispose) fun _ _ _ hm hl => ?_
    rw [hm.buffers_dispose]
    exact hm.dispose_lent hl
  | setNewMesh i => exact h.handed fun m hi => h.give hi Lifecycle.setNewMesh_moves
  | beginMesh => exact h.serve Lifecycle.beginMesh_moves
  | installIfCurrent ticket i =>
    exact h.handed fun m hi => h.give hi Lifecycle.installIfCurrent_moves
  | installMesh i => exact h.installMesh i
  | generate => exact h.serve Lifecycle.generate_moves
  | update => exact h.serve Lifecycle.update_moves
  | render pass => exact h.serve Lifecycle.render_moves
  | dispose => exact h.serve Lifecycle.dispose_moves
  | setFlags => exact h.serve (.idle rfl)

/-- Every list of acts keeps the account. -/
theorem foldl (h : s.Accounted) (acts : List Act) : (acts.foldl Handover.perform s).Accounted := by
  induction acts generalizing s with
  | nil => exact h
  | cons act acts ih => exact ih (h.perform act)

/-- Every run is accounted for. -/
theorem run (acts : List Act) : (run acts).Accounted := start.foldl acts

/-- The live buffers are those of the meshes that are anywhere. -/
theorem live_iff (h : s.Accounted) : Gpu.Live s.gpu.calls.toList b ↔
    (b ∈ s.life.buffers ∨ b ∈ buffersOf s.ignored) ∨ b ∈ buffersOf s.held := by
  rw [← h.holds.lent.mem_iff, List.mem_append, List.mem_append, or_assoc]

/-- A buffer that is held is nowhere else. -/
theorem not_held (h : s.Accounted) (hb : b ∈ s.life.buffers ∨ b ∈ buffersOf s.ignored) :
    b ∉ buffersOf s.held := by
  have hnodup := h.holds.lent.nodup
  rw [← List.append_assoc] at hnodup
  intro hheld
  exact (List.nodup_append.1 hnodup).2.2 b (List.mem_append.2 hb) b hheld rfl

/-- Of the meshes that were handed over, those in the slots and the ignored ones have live
buffers. -/
theorem live_handed_iff (h : s.Accounted) :
    Gpu.Live s.gpu.calls.toList b ∧ b ∉ buffersOf s.held ↔
      b ∈ s.life.buffers ∨ b ∈ buffersOf s.ignored := by
  rw [h.live_iff]
  constructor
  · rintro ⟨hb | hheld, hnot⟩
    · exact hb
    · exact absurd hheld hnot
  · intro hb
    exact ⟨.inl hb, h.not_held hb⟩

end Accounted

/-! ## What becomes of the chunk -/

/-- The slots moved once, or the chunk was not concerned. -/
def Moved (s s' : Handover) : Prop :=
  s'.life = s.life ∨ ∃ incoming, Lifecycle.Moves incoming s.life s.gpu s'.life s'.gpu

/-- Changing a held mesh does not concern the chunk. -/
theorem change_moved (i : Nat) (f : ChunkMesh → Gpu → ChunkMesh × Gpu) :
    Moved s (s.change i f) := by
  unfold change
  split
  · exact .inl rfl
  · exact .inl rfl

/-- Handing a mesh over moves the slots if there is one to hand over. -/
theorem give_moved (i : Nat) {f : ChunkMesh → Handover} (hf : ∀ m, Moved s (f m)) :
    Moved s (s.give i f) := by
  unfold give
  split
  · exact .inl rfl
  · exact hf _

/-- Each act moves the slots once at most. -/
theorem perform_moved (act : Act) : Moved s (s.perform act) := by
  cases act with
  | build g => exact .inl rfl
  | uploadHeld i => exact change_moved i _
  | disposeHeld i => exact change_moved i _
  | setNewMesh i => exact give_moved i fun m => .inr ⟨_, Lifecycle.setNewMesh_moves⟩
  | beginMesh => exact .inr ⟨_, Lifecycle.beginMesh_moves⟩
  | installIfCurrent ticket i =>
    exact give_moved i fun m => .inr ⟨_, Lifecycle.installIfCurrent_moves⟩
  | installMesh i =>
    refine give_moved i fun m => ?_
    -- a fresh chunk ignores what it is given
    cases hfresh : s.life.fresh with
    | true => exact .inl (by simp only [Lifecycle.installMesh_of_fresh hfresh])
    | false => exact .inr ⟨_, Lifecycle.installMesh_moves hfresh⟩
  | generate => exact .inr ⟨_, Lifecycle.generate_moves⟩
  | update => exact .inr ⟨_, Lifecycle.update_moves⟩
  | render pass => exact .inr ⟨_, Lifecycle.render_moves⟩
  | dispose => exact .inr ⟨_, Lifecycle.dispose_moves⟩
  | setFlags => exact .inr ⟨_, .idle rfl⟩

/-- A disposed chunk stays so. -/
theorem Moved.isDisposed {s' : Handover} (h : Moved s s') (hs : s.life.isDisposed = true) :
    s'.life.isDisposed = true := by
  rcases h with hsame | ⟨incoming, hmoves⟩
  · rw [hsame]
    exact hs
  · exact hmoves.isDisposed hs

/-- A chunk is disposed for good. -/
theorem isDisposed_foldl (hs : s.life.isDisposed = true) (acts : List Act) :
    (acts.foldl perform s).life.isDisposed = true := by
  induction acts generalizing s with
  | nil => exact hs
  | cons act acts ih => exact ih ((perform_moved act).isDisposed hs)

/-- A chunk that was disposed of stays so in every run, however many acts follow. -/
theorem isDisposed_run {acts : List Act} (h : (run acts).life.isDisposed = true)
    (more : List Act) : (run (acts ++ more)).life.isDisposed = true := by
  unfold run
  rw [List.foldl_append]
  exact isDisposed_foldl h more

/-- Disposal is for good, so all that comes after it finds the slots empty. -/
theorem isDisposed_run_dispose (acts more : List Act) :
    (run (acts ++ .dispose :: more)).life.isDisposed = true := by
  unfold run
  rw [List.foldl_append, List.foldl_cons]
  exact isDisposed_foldl Lifecycle.isDisposed_dispose more

/-! ## Results -/

/-- After every run no buffer was released twice, and none was drawn that was not live. The
buffers of the meshes that were handed over are live in the slots and nowhere else, unless a fresh
chunk ignored a mesh that had been uploaded. After disposal no others are left. -/
theorem buffers_accounted (acts : List Act) :
    let s := run acts
    (∀ b, s.gpu.calls.toList.count (.release b) ≤ 1) ∧
    (∀ before b pass after, s.gpu.calls.toList = before ++ .draw b pass :: after →
      Gpu.Live before b) ∧
    (∀ b, Gpu.Live s.gpu.calls.toList b ∧ b ∉ buffersOf s.held ↔
      b ∈ s.life.buffers ∨ b ∈ buffersOf s.ignored) ∧
    ∀ more b, let s' := run (acts ++ .dispose :: more)
      Gpu.Live s'.gpu.calls.toList b ∧ b ∉ buffersOf s'.held ↔ b ∈ buffersOf s'.ignored := by
  have hlent := (Accounted.run acts).holds.lent
  refine ⟨hlent.released_once, hlent.drawn_live, fun b => (Accounted.run acts).live_handed_iff,
    fun more b => ?_⟩
  have hafter := (Accounted.run (acts ++ .dispose :: more)).live_handed_iff (b := b)
  rw [Lifecycle.buffers_of_isDisposed (isDisposed_run_dispose acts more)] at hafter
  simpa using hafter

/-- A flat square. -/
def square : MeshGeometry where
  solid :=
    { positions := #[0, 0, 0, 0, 0, 1, 1, 0, 1, 1, 0, 0]
      normals := #[0, 1, 0, 0, 1, 0, 0, 1, 0, 0, 1, 0]
      texture := #[0, 0, 0, 1, 1, 1, 1, 0]
      indices := #[0, 1, 2, 0, 2, 3]
      colors := Array.replicate 16 255 }

/-- What it takes to draw the square. -/
def drawSquare : List Act :=
  [.build square, .setFlags true false false true, .installMesh 0, .generate, .update,
    .render .solid]

/-- The square is live when it is drawn, and after disposal nothing is. -/
theorem buffers_accounted_square :
    (run drawSquare).gpu.calls.toList = [.upload 0 1] ++ .draw 0 .solid :: [] ∧
      Gpu.Live [.upload 0 1] 0 ∧
      ¬ Gpu.Live (run (drawSquare ++ [.dispose])).gpu.calls.toList 0 := by
  rcases buffers_accounted drawSquare with ⟨-, hdrawn, -, hafter⟩
  have hnot_held : 0 ∉ buffersOf (run (drawSquare ++ [.dispose])).held := List.not_mem_nil
  refine ⟨rfl, hdrawn [.upload 0 1] 0 .solid [] rfl, fun hlive => ?_⟩
  exact List.not_mem_nil ((hafter [] 0).1 ⟨hlive, hnot_held⟩)

/-- A new chunk ignores an uploaded mesh, and its buffer outlives the chunk. -/
theorem ignored_mesh_leaks :
    let acts := [.build square, .uploadHeld 0, .installMesh 0]
    ∀ s ∈ [run acts, run (acts ++ [.dispose])],
      Gpu.Live s.gpu.calls.toList 0 ∧ 0 ∉ buffersOf s.held ∧ 0 ∉ s.life.buffers := by
  intro acts s hs
  have hend : s.gpu.calls.toList = [.upload 0 1] ∧ s.held = [] ∧ s.life.buffers = [] := by
    simp only [List.mem_cons, List.not_mem_nil, or_false] at hs
    rcases hs with rfl | rfl
    · exact ⟨rfl, rfl, rfl⟩
    · exact ⟨rfl, rfl, rfl⟩
  rcases hend with ⟨hcalls, hheld, hslots⟩
  rw [hcalls, hheld, hslots]
  simp [Gpu.Live, buffersOf]

/-- In every state that a chunk can reach, the active mesh is uploaded and not disposed. A pending
mesh is promoted exactly when it is due; then the mesh that was drawn so far is disposed, and
otherwise nothing happens. A chunk that is disposed stays so and draws nothing. -/
theorem active_mesh_presentable (acts : List Act) :
    let s := run acts
    (∀ m, s.life.activeMesh? = some m → m.generated = true ∧ m.disposed = false) ∧
    ((s.life.update s.gpu).1 = true ↔ ∃ p, s.life.Due p) ∧
    (∀ p, s.life.Due p → let s' := s.perform .update
      s'.life.activeMesh? = some p ∧ s'.life.pendingMesh? = none ∧
      s'.gpu.calls.toList =
        s.gpu.calls.toList ++ (slotBuffers s.life.activeMesh?).map .release) ∧
    ((s.life.update s.gpu).1 = false → s.perform .update = s) ∧
    (s.life.isDisposed = true → ∀ more pass, let s' := run (acts ++ more)
      s'.life.isDisposed = true ∧ s'.perform (.render pass) = s') := by
  have hpresentable := (Accounted.run acts).presentable
  refine ⟨hpresentable, Lifecycle.update_eq_true_iff, fun p hp => ?_, fun hfalse => ?_,
    fun hdisposed more pass => ?_⟩
  · -- promotion puts the pending mesh where the active one was
    simp only [perform, Lifecycle.update_of_due hp]
    exact ⟨rfl, rfl, hpresentable.calls_disposeSlot⟩
  · simp only [perform, Lifecycle.update_of_eq_false hfalse]
  · have hdisposed' := isDisposed_run hdisposed more
    refine ⟨hdisposed', ?_⟩
    simp only [perform, Lifecycle.render_of_isDisposed hdisposed']

/-- The square is promoted, and it stays when its owner asks again. -/
theorem active_mesh_presentable_square :
    (∃ p, (run (drawSquare.take 4)).life.Due p ∧
      (run (drawSquare.take 5)).life.activeMesh? = some p) ∧
      (run drawSquare).perform .update = run drawSquare := by
  rcases active_mesh_presentable (drawSquare.take 4) with ⟨-, -, hpromoted, -⟩
  rcases active_mesh_presentable drawSquare with ⟨-, -, -, hidle, -⟩
  have hdue : ∃ p, (run (drawSquare.take 4)).life.Due p := ⟨_, rfl, rfl, rfl, rfl, rfl, rfl, rfl⟩
  rcases hdue with ⟨p, hp⟩
  exact ⟨⟨p, hp, (hpromoted p hp).1⟩, hidle rfl⟩

end Handover

end VoxelWorld
