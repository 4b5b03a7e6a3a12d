import VoxelWorld.Mesh.ChunkMesh

/-!
# Chunk.Lifecycle — flags and mesh slots

A chunk has an active mesh, which is drawn, and a pending one, which will replace it.

1. **Flags**: a chunk is *fresh* until it is generated, *light dirty* until its light
   is spread into its neighbours and *dirty* while its mesh may be out of date.
2. **Tickets**: each build of a mesh takes a ticket when it starts; only the build
   with the last ticket can still install its mesh.
3. **Slots**: a mesh that leaves its slot is disposed, and a disposed chunk keeps none.
-/

namespace VoxelWorld

/-- The mesh slots of a chunk. -/
inductive MeshSlots
  | live (active pending : Option ChunkMesh)
  /-- The chunk has been disposed; it never has a mesh again. -/
  | disposed
deriving Inhabited

/-- What the slots of a chunk show. -/
inductive MeshPhase
  | noMesh
  /-- The pending mesh has not been uploaded. -/
  | pendingBuild
  /-- The pending mesh is uploaded and can replace the active one. -/
  | pendingReady
  | active
  | disposed
deriving DecidableEq, Repr, Inhabited

def MeshPhase.name : MeshPhase → String
  | noMesh => "NoMesh"
  | pendingBuild => "PendingBuild"
  | pendingReady => "PendingReady"
  | active => "Active"
  | disposed => "Disposed"

/-- The part of a chunk that drawing code shares with the world. -/
structure Lifecycle where
  dirty : Bool := true
  lightDirty : Bool := true
  fresh : Bool := true
  visible : Bool := true
  /-- Number of mesh builds started so far. -/
  ticket : Nat := 0
  slots : MeshSlots := .live none none
deriving Inhabited

namespace Lifecycle

def new : Lifecycle := {}

/-! ## Looking -/

def isDisposed (s : Lifecycle) : Bool :=
  match s.slots with
  | .disposed => true
  | .live _ _ => false

def activeMesh? (s : Lifecycle) : Option ChunkMesh :=
  match s.slots with
  | .live a _ => a
  | .disposed => none

def pendingMesh? (s : Lifecycle) : Option ChunkMesh :=
  match s.slots with
  | .live _ p => p
  | .disposed => none

def phase (s : Lifecycle) : MeshPhase :=
  match s.slots with
  | .disposed => .disposed
  | .live _ (some p) => if p.generated then .pendingReady else .pendingBuild
  | .live (some _) none => .active
  | .live none none => .noMesh

/-- The four flags as letters, a dash where one is unset. -/
def flags (s : Lifecycle) : String :=
  String.ofList
    [if s.dirty then 'D' else '-', if s.lightDirty then 'L' else '-',
      if s.fresh then 'F' else '-', if s.visible then 'V' else '-']

/-! ## Installing meshes -/

/-- Disposes the mesh of a slot, if there is one. -/
def disposeSlot (slot : Option ChunkMesh) (gpu : Gpu) : Gpu :=
  match slot with
  | none => gpu
  | some m => (m.dispose gpu).2

/-- Makes a mesh the pending one. The one before it is disposed, and so is the new one
if the chunk has been disposed. -/
def setNewMesh (s : Lifecycle) (m : ChunkMesh) (gpu : Gpu) : Lifecycle × Gpu :=
  match s.slots with
  | .disposed => (s, (m.dispose gpu).2)
  | .live active pending =>
    ({ s with slots := .live active (some m) }, disposeSlot pending gpu)

/-- Starts a build and gives its ticket. A pending mesh is disposed, since it no longer
shows the chunk as it is. -/
def beginMesh (s : Lifecycle) (gpu : Gpu) : Nat × Lifecycle × Gpu :=
  match s.slots with
  | .disposed => (s.ticket + 1, { s with ticket := s.ticket + 1 }, gpu)
  | .live active pending =>
    (s.ticket + 1, { s with ticket := s.ticket + 1, slots := .live active none },
      disposeSlot pending gpu)

/-- Makes a mesh the pending one if its build was the last to start, and disposes it
otherwise. -/
def installIfCurrent (s : Lifecycle) (ticket : Nat) (m : ChunkMesh) (gpu : Gpu) :
    Bool × Lifecycle × Gpu :=
  match s.slots with
  | .disposed => (false, s, (m.dispose gpu).2)
  | .live active pending =>
    if s.ticket = ticket then
      (true, { s with slots := .live active (some m) }, disposeSlot pending gpu)
    else (false, s, (m.dispose gpu).2)

/-- Installs a mesh that was built in place, and clears `dirty`. A fresh chunk drops the
mesh. -/
def installMesh (s : Lifecycle) (m : ChunkMesh) (gpu : Gpu) : Bool × Lifecycle × Gpu :=
  if s.fresh then (false, s, gpu)
  else
    let (_, s, gpu) := s.beginMesh gpu
    let (s, gpu) := s.setNewMesh m gpu
    (true, { s with dirty := false }, gpu)

/-! ## Drawing -/

/-- Uploads the pending mesh. -/
def generate (s : Lifecycle) (gpu : Gpu) : Lifecycle × Gpu :=
  match s.slots with
  | .live active (some p) =>
    if p.disposed then (s, gpu)
    else
      let (p, gpu) := p.generate gpu
      ({ s with slots := .live active (some p) }, gpu)
  | _ => (s, gpu)

/-- Replaces the active mesh by an uploaded pending one, unless a flag says that the
pending mesh is out of date. -/
def update (s : Lifecycle) (gpu : Gpu) : Bool × Lifecycle × Gpu :=
  if s.dirty || s.fresh || s.lightDirty then (false, s, gpu)
  else
    match s.slots with
    | .live active (some p) =>
      if p.generated && !p.disposed then
        (true, { s with slots := .live (some p) none }, disposeSlot active gpu)
      else (false, s, gpu)
    | _ => (false, s, gpu)

/-- Draws one pass of the active mesh. -/
def render (s : Lifecycle) (pass : Pass) (gpu : Gpu) : Gpu :=
  match s.slots with
  | .live (some m) _ => m.render pass gpu
  | _ => gpu

/-- Disposes both meshes, for good. -/
def dispose (s : Lifecycle) (gpu : Gpu) : Lifecycle × Gpu :=
  match s.slots with
  | .disposed => (s, gpu)
  | .live active pending =>
    ({ s with slots := .disposed }, disposeSlot pending (disposeSlot active gpu))

end Lifecycle

end VoxelWorld
