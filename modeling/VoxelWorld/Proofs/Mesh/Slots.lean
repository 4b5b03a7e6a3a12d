import VoxelWorld.Chunk.Lifecycle
import VoxelWorld.Proofs.Mesh.Buffers

/-!
# Proofs.Mesh.Slots — what an operation does to the mesh slots

* `Moves` lists what can happen to the two slots of a chunk and to the device in one operation:
  a mesh comes in, is uploaded, is promoted, is drawn or leaves. Each operation of a `Lifecycle`
  is one of these (`beginMesh_moves` to `dispose_moves`).
* `Holds` says that the chunk owns the buffers of its meshes and somebody else the rest, and
  `Presentable` that its active mesh can be drawn. Every move keeps them, and no move brings a
  disposed chunk back (`Holds.moves`, `Presentable.moves`, `Moves.isDisposed`).
* `Moves.pending_cases` and `Moves.active_cases` say where the meshes in the slots come from.
* A pending mesh is promoted when it is `Due`, and only then (`update_eq_true_iff`).
-/

namespace VoxelWorld

/-- The buffers of the mesh in a slot. -/
def slotBuffers (slot : Option ChunkMesh) : List Nat := slot.toList.flatMap ChunkMesh.buffers

@[simp] theorem slotBuffers_none : slotBuffers none = [] := rfl

@[simp] theorem slotBuffers_some (m : ChunkMesh) : slotBuffers (some m) = m.buffers :=
  List.append_nil _

namespace Lifecycle

/-- What one operation does to the slots of a chunk and to the device. The mesh that is handed
over, if there is one, comes first. -/
inductive Moves : Option ChunkMesh → Lifecycle → Gpu → Lifecycle → Gpu → Prop
  | idle {s s' gpu} (h : s'.slots = s.slots) : Moves none s gpu s' gpu
  /-- The pending mesh leaves. -/
  | drop {s s' gpu active pending} (h : s.slots = .live active pending)
    (h' : s'.slots = .live active none) : Moves none s gpu s' (disposeSlot pending gpu)
  /-- A mesh becomes the pending one, and the one before it leaves. -/
  | place {s s' gpu active pending m} (h : s.slots = .live active pending)
    (h' : s'.slots = .live active (some m)) : Moves (some m) s gpu s' (disposeSlot pending gpu)
  /-- A mesh is not taken. -/
  | reject {s s' gpu m} (h : s'.slots = s.slots) : Moves (some m) s gpu s' (m.dispose gpu).2
  | upload {s s' gpu active p} (h : s.slots = .live active (some p))
    (h' : s'.slots = .live active (some (p.generate gpu).1)) :
    Moves none s gpu s' (p.generate gpu).2
  /-- The pending mesh becomes the active one, and the one before it leaves. -/
  | promote {s s' gpu active p} (h : s.slots = .live active (some p))
    (hp : p.generated = true ∧ p.disposed = false) (h' : s'.slots = .live (some p) none) :
    Moves none s gpu s' (disposeSlot active gpu)
  | draw {s gpu m pending pass} (h : s.slots = .live (some m) pending) :
    Moves none s gpu s (m.render pass gpu)
  /-- Both meshes leave for good. -/
  | retire {s s' gpu active pending} (h : s.slots = .live active pending)
    (h' : s'.slots = .disposed) :
    Moves none s gpu s' (disposeSlot pending (disposeSlot active gpu))

variable {s s' : Lifecycle} {gpu gpu' : Gpu} {m p : ChunkMesh}
  {active pending incoming : Option ChunkMesh} {rest : List Nat} {pass : Pass} {ticket : Nat}

/-! ## Operations -/

/-- A new ticket makes the pending mesh leave. -/
theorem beginMesh_moves : Moves none s gpu (s.beginMesh gpu).2.1 (s.beginMesh gpu).2.2 := by
  unfold beginMesh
  split
  · exact .idle rfl
  · exact .drop ‹_› rfl

/-- A mesh is placed unless the chunk is disposed. -/
theorem setNewMesh_moves : Moves (some m) s gpu (s.setNewMesh m gpu).1 (s.setNewMesh m gpu).2 := by
  unfold setNewMesh
  split
  · exact .reject rfl
  · exact .place ‹_› rfl

/-- A mesh that was built is placed if its ticket is current and the chunk is not disposed. -/
theorem installIfCurrent_moves : Moves (some m) s gpu (s.installIfCurrent ticket m gpu).2.1
    (s.installIfCurrent ticket m gpu).2.2 := by
  unfold installIfCurrent
  split
  · exact .reject rfl
  · split
    · exact .place ‹_› rfl
    · exact .reject rfl

/-- The two steps of installing a mesh dispose the pending one once. -/
theorem installMesh_moves (hfresh : s.fresh = false) :
    Moves (some m) s gpu (s.installMesh m gpu).2.1 (s.installMesh m gpu).2.2 := by
  unfold installMesh beginMesh setNewMesh
  rw [hfresh]
  cases hslots : s.slots with
  | live active pending => exact .place hslots rfl
  | disposed => exact .reject hslots.symm

/-- A generated chunk says that it took the mesh. -/
theorem installMesh_taken (hfresh : s.fresh = false) : (s.installMesh m gpu).1 = true := by
  unfold installMesh
  rw [hfresh]
  rfl

/-- A fresh chunk has nothing to do with a mesh. -/
theorem installMesh_of_fresh (hfresh : s.fresh = true) : s.installMesh m gpu = (false, s, gpu) := by
  unfold installMesh
  rw [if_pos hfresh]

/-- The pending mesh is uploaded where there is one. -/
theorem generate_moves : Moves none s gpu (s.generate gpu).1 (s.generate gpu).2 := by
  unfold generate
  split
  · split
    · exact .idle rfl
    · exact .upload ‹_› rfl
  · exact .idle rfl

/-- A mesh that is ready is promoted if the chunk is clean. -/
theorem update_moves : Moves none s gpu (s.update gpu).2.1 (s.update gpu).2.2 := by
  unfold update
  split
  · exact .idle rfl
  · split
    · split
      · rename_i hready
        exact .promote ‹_› (by simpa using hready) rfl
      · exact .idle rfl
    · exact .idle rfl

/-- The active mesh is drawn. -/
theorem render_moves : Moves none s gpu s (s.render pass gpu) := by
  unfold render
  split
  · exact .draw ‹_›
  · exact .idle rfl

/-- Both meshes leave, once. -/
theorem dispose_moves : Moves none s gpu (s.dispose gpu).1 (s.dispose gpu).2 := by
  unfold dispose
  split
  · exact .idle rfl
  · exact .retire ‹_› rfl

/-- What is done with a mesh shows in the slots alone. -/
theorem Moves.of_slots {s'' : Lifecycle} (h : Moves (some m) s gpu s' gpu')
    (hslots : s''.slots = s'.slots) : Moves (some m) s gpu s'' gpu' := by
  cases h with
  | place h h' => exact .place h (hslots.trans h')
  | reject h => exact .reject (hslots.trans h)

/-! ## Slots that are known -/

theorem activeMesh?_of_live (h : s.slots = .live active pending) : s.activeMesh? = active := by
  unfold activeMesh?
  rw [h]

theorem pendingMesh?_of_live (h : s.slots = .live active pending) : s.pendingMesh? = pending := by
  unfold pendingMesh?
  rw [h]

/-- A chunk is disposed if it has no slots. -/
theorem isDisposed_iff : s.isDisposed = true ↔ s.slots = .disposed := by
  unfold isDisposed
  cases s.slots <;> simp

/-- Disposing makes it so. -/
theorem isDisposed_dispose : (s.dispose gpu).1.isDisposed = true := by
  rw [isDisposed_iff]
  unfold dispose
  split
  · assumption
  · rfl

theorem activeMesh?_of_disposed (h : s.slots = .disposed) : s.activeMesh? = none := by
  unfold activeMesh?
  rw [h]

theorem pendingMesh?_of_disposed (h : s.slots = .disposed) : s.pendingMesh? = none := by
  unfold pendingMesh?
  rw [h]

theorem activeMesh?_congr (h : s'.slots = s.slots) : s'.activeMesh? = s.activeMesh? := by
  unfold activeMesh?
  rw [h]

theorem pendingMesh?_congr (h : s'.slots = s.slots) : s'.pendingMesh? = s.pendingMesh? := by
  unfold pendingMesh?
  rw [h]

/-! ## Buffers -/

/-- The buffers of the meshes of a chunk. -/
def buffers (s : Lifecycle) : List Nat := slotBuffers s.activeMesh? ++ slotBuffers s.pendingMesh?

/-- A disposed chunk owns no buffer. -/
theorem buffers_of_isDisposed (h : s.isDisposed = true) : s.buffers = [] := by
  rw [isDisposed_iff] at h
  unfold buffers
  rw [activeMesh?_of_disposed h, pendingMesh?_of_disposed h]
  rfl

/-- The chunk owns the buffers of its meshes, and the others are those of the list. -/
structure Holds (s : Lifecycle) (gpu : Gpu) (rest : List Nat) : Prop where
  active : ∀ m ∈ s.activeMesh?, m.Sound
  pending : ∀ m ∈ s.pendingMesh?, m.Sound
  lent : gpu.Lent (s.buffers ++ rest)

/-- What a chunk owns, slot by slot. -/
theorem holds_of_live (h : s.slots = .live active pending) : s.Holds gpu rest ↔
    (∀ m ∈ active, m.Sound) ∧ (∀ m ∈ pending, m.Sound) ∧
      gpu.Lent (slotBuffers active ++ (slotBuffers pending ++ rest)) := by
  have hbuffers : s.buffers = slotBuffers active ++ slotBuffers pending := by
    unfold buffers
    rw [activeMesh?_of_live h, pendingMesh?_of_live h]
  constructor
  · rintro ⟨hactive, hpending, hlent⟩
    rw [activeMesh?_of_live h] at hactive
    rw [pendingMesh?_of_live h] at hpending
    rw [hbuffers, List.append_assoc] at hlent
    exact ⟨hactive, hpending, hlent⟩
  · rintro ⟨hactive, hpending, hlent⟩
    rw [← activeMesh?_of_live h] at hactive
    rw [← pendingMesh?_of_live h] at hpending
    rw [← List.append_assoc, ← hbuffers] at hlent
    exact ⟨hactive, hpending, hlent⟩

/-- A disposed chunk owns nothing, so all live buffers are those of others. -/
theorem holds_of_disposed (h : s.slots = .disposed) : s.Holds gpu rest ↔ gpu.Lent rest := by
  have hbuffers : s.buffers = [] := buffers_of_isDisposed (isDisposed_iff.2 h)
  constructor
  · rintro ⟨-, -, hlent⟩
    rwa [hbuffers] at hlent
  · intro hlent
    refine ⟨?_, ?_, by rwa [hbuffers]⟩
    · simp [activeMesh?_of_disposed h]
    · simp [pendingMesh?_of_disposed h]

/-- A mesh that leaves gives its buffers back. -/
theorem disposeSlot_lent (hsound : ∀ m ∈ pending, m.Sound)
    (h : gpu.Lent (slotBuffers pending ++ rest)) : (disposeSlot pending gpu).Lent rest := by
  cases pending with
  | none => exact h
  | some m =>
    rw [slotBuffers_some] at h
    exact (hsound m rfl).dispose_lent h

/-- Whatever an operation does, the chunk owns the buffers of its meshes, and those of the others
are left alone. -/
theorem Holds.moves (h : s.Holds gpu (slotBuffers incoming ++ rest))
    (hsound : ∀ m ∈ incoming, m.Sound) (hmoves : Moves incoming s gpu s' gpu') :
    s'.Holds gpu' rest := by
  -- by what happens to the slots; buffers are only counted, as their order is of no interest
  cases hmoves with
  | idle hsame =>
    cases hslots : s.slots with
    | live active pending =>
      exact (holds_of_live (hsame.trans hslots)).2 ((holds_of_live hslots).1 h)
    | disposed => exact (holds_of_disposed (hsame.trans hslots)).2 ((holds_of_disposed hslots).1 h)
  | @drop _ _ _ active pending hslots hslots' =>
    rcases (holds_of_live hslots).1 h with ⟨hactive, hpending, hlent⟩
    refine (holds_of_live hslots').2 ⟨hactive, nofun, disposeSlot_lent hpending ?_⟩
    exact hlent.of_count fun b => by simp only [List.count_append, slotBuffers_none]; omega
  | @place _ _ _ active pending m hslots hslots' =>
    rcases (holds_of_live hslots).1 h with ⟨hactive, hpending, hlent⟩
    refine (holds_of_live hslots').2 ⟨hactive, hsound, disposeSlot_lent hpending ?_⟩
    exact hlent.of_count fun b => by simp only [List.count_append]; omega
  | @reject _ _ _ m hsame =>
    have hm : m.Sound := hsound m rfl
    cases hslots : s.slots with
    | live active pending =>
      rcases (holds_of_live hslots).1 h with ⟨hactive, hpending, hlent⟩
      refine (holds_of_live (hsame.trans hslots)).2 ⟨hactive, hpending, hm.dispose_lent ?_⟩
      exact hlent.of_count fun b => by
        simp only [List.count_append, slotBuffers_some]; omega
    | disposed =>
      rw [holds_of_disposed hslots, slotBuffers_some] at h
      exact (holds_of_disposed (hsame.trans hslots)).2 (hm.dispose_lent h)
  | @upload _ _ _ active p hslots hslots' =>
    rcases (holds_of_live hslots).1 h with ⟨hactive, hpending, hlent⟩
    have hp : p.Sound := hpending p rfl
    refine (holds_of_live hslots').2 ⟨hactive, ?_, ?_⟩
    · rintro _ ⟨⟩
      exact hp.generate
    · -- the buffers of the uploaded mesh are moved to the front
      have hfront : gpu.Lent (p.buffers ++ (slotBuffers active ++ rest)) :=
        hlent.of_count fun b => by
          simp only [List.count_append, slotBuffers_some, slotBuffers_none, List.count_nil]
          omega
      exact (hp.generate_lent hfront).of_count fun b => by
        simp only [List.count_append, slotBuffers_some]
        omega
  | @promote _ _ _ active p hslots _ hslots' =>
    rcases (holds_of_live hslots).1 h with ⟨hactive, hpending, hlent⟩
    exact (holds_of_live hslots').2 ⟨hpending, nofun, disposeSlot_lent hactive hlent⟩
  | @draw _ _ m pending pass hslots =>
    rcases (holds_of_live hslots).1 h with ⟨hactive, hpending, hlent⟩
    refine (holds_of_live hslots).2 ⟨hactive, hpending, ChunkMesh.render_lent ?_ hlent⟩
    intro b hb
    rw [slotBuffers_some]
    exact List.mem_append_left _ hb
  | @retire _ _ _ active pending hslots hslots' =>
    rcases (holds_of_live hslots).1 h with ⟨hactive, hpending, hlent⟩
    exact (holds_of_disposed hslots').2
      (disposeSlot_lent hpending (disposeSlot_lent hactive hlent))

/-! ## The active mesh -/

/-- The active mesh, if there is one, can be drawn. -/
def Presentable (s : Lifecycle) : Prop :=
  ∀ m, s.activeMesh? = some m → m.generated = true ∧ m.disposed = false

/-- When the active mesh leaves, its buffers are released. -/
theorem Presentable.calls_disposeSlot (h : s.Presentable) :
    (disposeSlot s.activeMesh? gpu).calls.toList =
      gpu.calls.toList ++ (slotBuffers s.activeMesh?).map .release := by
  cases hactive : s.activeMesh? with
  | none => exact (List.append_nil _).symm
  | some m =>
    rw [slotBuffers_some]
    exact ChunkMesh.calls_dispose (h m hactive).2

/-- A mesh comes to the active slot from the pending one, and then it is ready. -/
theorem Moves.active_cases (h : Moves incoming s gpu s' gpu') (hm : s'.activeMesh? = some m) :
    s.activeMesh? = some m ∨
      s.pendingMesh? = some m ∧ m.generated = true ∧ m.disposed = false := by
  -- only promotion puts a mesh into the active slot
  cases h with
  | idle hsame => exact .inl (activeMesh?_congr hsame ▸ hm)
  | drop hslots hslots' =>
    rw [activeMesh?_of_live hslots'] at hm
    exact .inl ((activeMesh?_of_live hslots).trans hm)
  | place hslots hslots' =>
    rw [activeMesh?_of_live hslots'] at hm
    exact .inl ((activeMesh?_of_live hslots).trans hm)
  | reject hsame => exact .inl (activeMesh?_congr hsame ▸ hm)
  | upload hslots hslots' =>
    rw [activeMesh?_of_live hslots'] at hm
    exact .inl ((activeMesh?_of_live hslots).trans hm)
  | promote hslots hp hslots' =>
    rw [activeMesh?_of_live hslots'] at hm
    cases hm
    exact .inr ⟨pendingMesh?_of_live hslots, hp⟩
  | draw => exact .inl hm
  | retire _ hslots' =>
    rw [activeMesh?_of_disposed hslots'] at hm
    cases hm

/-- Whatever moves the slots, an active mesh can be drawn. -/
theorem Presentable.moves (h : s.Presentable) (hmoves : Moves incoming s gpu s' gpu') :
    s'.Presentable := by
  intro m hm
  rcases hmoves.active_cases hm with hold | ⟨-, hready⟩
  · exact h m hold
  · exact hready

/-- The pending mesh has just come in, or it was there before and may have been uploaded. -/
theorem Moves.pending_cases (h : Moves incoming s gpu s' gpu') (hp : s'.pendingMesh? = some p) :
    incoming = some p ∨
      ∃ q, s.pendingMesh? = some q ∧ (p = q ∨ ∃ gpu, p = (q.generate gpu).1) := by
  -- a pending mesh was placed, or it was there and may have been uploaded
  cases h with
  | idle hsame => exact .inr ⟨p, pendingMesh?_congr hsame ▸ hp, .inl rfl⟩
  | drop _ hslots' =>
    rw [pendingMesh?_of_live hslots'] at hp
    cases hp
  | place _ hslots' =>
    rw [pendingMesh?_of_live hslots'] at hp
    exact .inl hp
  | reject hsame => exact .inr ⟨p, pendingMesh?_congr hsame ▸ hp, .inl rfl⟩
  | upload hslots hslots' =>
    rw [pendingMesh?_of_live hslots'] at hp
    cases hp
    exact .inr ⟨_, pendingMesh?_of_live hslots, .inr ⟨gpu, rfl⟩⟩
  | promote _ _ hslots' =>
    rw [pendingMesh?_of_live hslots'] at hp
    cases hp
  | draw => exact .inr ⟨p, hp, .inl rfl⟩
  | retire _ hslots' =>
    rw [pendingMesh?_of_disposed hslots'] at hp
    cases hp

/-- A disposed chunk stays so. -/
theorem Moves.isDisposed (h : Moves incoming s gpu s' gpu') (hs : s.isDisposed = true) :
    s'.isDisposed = true := by
  rw [isDisposed_iff] at hs ⊢
  cases h with
  | idle hsame => exact hsame.trans hs
  | reject hsame => exact hsame.trans hs
  | draw => exact hs
  | retire _ hslots' => exact hslots'
  | drop hslots _ => exact absurd (hs.symm.trans hslots) nofun
  | place hslots _ => exact absurd (hs.symm.trans hslots) nofun
  | upload hslots _ => exact absurd (hs.symm.trans hslots) nofun
  | promote hslots _ _ => exact absurd (hs.symm.trans hslots) nofun

/-! ## Tickets -/

@[simp] theorem ticket_beginMesh : (s.beginMesh gpu).2.1.ticket = s.ticket + 1 := by
  unfold beginMesh
  split <;> rfl

@[simp] theorem ticket_setNewMesh : (s.setNewMesh m gpu).1.ticket = s.ticket := by
  unfold setNewMesh
  split <;> rfl

@[simp] theorem ticket_installIfCurrent :
    (s.installIfCurrent ticket m gpu).2.1.ticket = s.ticket := by
  unfold installIfCurrent
  split
  · rfl
  · split <;> rfl

@[simp] theorem ticket_generate : (s.generate gpu).1.ticket = s.ticket := by
  unfold generate
  split
  · split <;> rfl
  · rfl

@[simp] theorem ticket_update : (s.update gpu).2.1.ticket = s.ticket := by
  unfold update
  split
  · rfl
  · split
    · split <;> rfl
    · rfl

@[simp] theorem ticket_dispose : (s.dispose gpu).1.ticket = s.ticket := by
  unfold dispose
  split <;> rfl

/-- The first step of a build gives the new ticket. -/
theorem beginMesh_fst : (s.beginMesh gpu).1 = s.ticket + 1 := by
  unfold beginMesh
  split <;> rfl

/-- A mesh that is handed over becomes the pending one, unless the chunk is disposed. -/
theorem pendingMesh?_setNewMesh (h : (s.setNewMesh m gpu).1.pendingMesh? = some p) :
    s.pendingMesh? = some p ∨ p = m := by
  unfold setNewMesh at h
  split at h
  · exact .inl h
  · exact .inr (Option.some.inj h).symm

/-- A build that starts leaves no pending mesh. -/
theorem pendingMesh?_beginMesh : (s.beginMesh gpu).2.1.pendingMesh? = none := by
  unfold beginMesh
  split
  · exact pendingMesh?_of_disposed ‹_›
  · rfl

/-- Only the last ticket installs a mesh, while the chunk is not disposed. -/
theorem installIfCurrent_eq_true_iff : (s.installIfCurrent ticket m gpu).1 = true ↔
    s.ticket = ticket ∧ s.isDisposed = false := by
  unfold installIfCurrent isDisposed
  cases s.slots with
  | live active pending => by_cases h : s.ticket = ticket <;> simp [h]
  | disposed => simp

/-- A mesh that is taken is the pending one. -/
theorem slots_of_installIfCurrent (h : (s.installIfCurrent ticket m gpu).1 = true) :
    (s.installIfCurrent ticket m gpu).2.1.slots = .live s.activeMesh? (some m) := by
  rcases installIfCurrent_eq_true_iff.1 h with ⟨hticket, -⟩
  revert h
  unfold installIfCurrent activeMesh?
  cases s.slots with
  | live active pending =>
    intro _
    simp only [if_pos hticket]
  | disposed => nofun

/-- One that is not taken is disposed, and the chunk stays as it is. -/
theorem installIfCurrent_of_eq_false (h : (s.installIfCurrent ticket m gpu).1 = false) :
    s.installIfCurrent ticket m gpu = (false, s, (m.dispose gpu).2) := by
  revert h
  unfold installIfCurrent
  split
  · intro _
    rfl
  · split
    · nofun
    · intro _
      rfl

/-! ## Promotion -/

/-- What a pending mesh waits for. -/
structure Due (s : Lifecycle) (p : ChunkMesh) : Prop where
  clean : s.dirty = false
  filled : s.fresh = false
  lit : s.lightDirty = false
  live : s.isDisposed = false
  pending : s.pendingMesh? = some p
  generated : p.generated = true
  undisposed : p.disposed = false

/-- A chunk with a pending mesh is live. -/
theorem slots_of_pendingMesh? (h : s.pendingMesh? = some p) :
    s.slots = .live s.activeMesh? (some p) := by
  unfold pendingMesh? at h
  unfold activeMesh?
  split at h
  · rename_i hslots
    rw [hslots, h]
  · cases h

/-- A mesh that is due becomes the active one, and the one before it leaves. -/
theorem update_of_due (h : s.Due p) : s.update gpu =
    (true, { s with slots := .live (some p) none }, disposeSlot s.activeMesh? gpu) := by
  unfold update
  rw [h.clean, h.filled, h.lit, slots_of_pendingMesh? h.pending]
  simp only [h.generated, h.undisposed, Bool.or_self, Bool.false_eq_true, if_false,
    Bool.not_false, Bool.and_self, if_true]

/-- Otherwise nothing changes. -/
theorem update_of_not_due (h : ∀ p, ¬ s.Due p) : s.update gpu = (false, s, gpu) := by
  unfold update
  split
  · rfl
  · rename_i hflags
    split
    · rename_i active p hslots
      split
      · -- flags, slots and the mesh itself say together that it is due
        rename_i hready
        simp only [Bool.not_eq_true, Bool.or_eq_false_iff] at hflags
        simp only [Bool.and_eq_true, Bool.not_eq_true'] at hready
        refine absurd ⟨hflags.1.1, hflags.1.2, hflags.2, ?_, pendingMesh?_of_live hslots,
          hready.1, hready.2⟩ (h p)
        rw [Bool.eq_false_iff, Ne, isDisposed_iff, hslots]
        nofun
      · rfl
    · rfl

/-- The pending mesh is promoted exactly when it is due. -/
theorem update_eq_true_iff : (s.update gpu).1 = true ↔ ∃ p, s.Due p := by
  constructor
  · intro htrue
    by_contra hno
    rw [update_of_not_due (not_exists.1 hno)] at htrue
    cases htrue
  · rintro ⟨p, hp⟩
    rw [update_of_due hp]

/-- Nothing happens unless a mesh is promoted. -/
theorem update_of_eq_false (h : (s.update gpu).1 = false) : s.update gpu = (false, s, gpu) := by
  apply update_of_not_due
  intro p hp
  rw [update_of_due hp] at h
  cases h

/-- A disposed chunk draws nothing. -/
theorem render_of_isDisposed (h : s.isDisposed = true) : s.render pass gpu = gpu := by
  rw [isDisposed_iff] at h
  unfold render
  rw [h]

end Lifecycle

end VoxelWorld
