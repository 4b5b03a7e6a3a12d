import VoxelWorld.Proofs.World.Calls
import VoxelWorld.Proofs.World.Unload

/-!
# Proofs.World.BlockMap — a world is one map of blocks

* `Request` are the calls that bring chunks in, fill, edit, save and unload them, far chunks in any
  order. A `Ledger` is a world beside which we keep the blocks that were placed.
* `generatedBlock` is the block that the generators give to a position, whether its chunk is there
  or not. What was placed last, or else this, is the block of the ledger.
* Every request keeps the world in step with its ledger (`Kept.perform`). So wherever requests
  have led, generated chunks show the blocks of the ledger, and an edit succeeds where it differs
  from them (`refines_block_map`).
-/

namespace VoxelWorld

/-- The calls that bring chunks in, change them or let them go. The order in which far chunks are
unloaded comes with the request: `World.unloadOutside` is the case of `ChunkStore.bySeat`. -/
inductive Request
  | generate (c : ChunkCoord)
  | process (c : ChunkCoord)
  | relight (c : ChunkCoord)
  | edit (p : Pos) (id : BlockId)
  | load (c : ChunkCoord)
  | unload (c : ChunkCoord)
  | unloadOutside (arrange : ChunkStore → List Chunk → List Chunk) (center : ChunkCoord)
      (radius : Int)
  | saveAll

/-- The numbers of the request fit the width of a coordinate. -/
def Request.Fits : Request → Prop
  | generate c => c.Fits
  | process c => c.Fits
  | relight c => c.Fits
  | edit p _ => FitsCoord p.x ∧ FitsCoord p.z
  | load c => c.Fits
  | unload c => c.Fits
  | unloadOutside _ center _ => center.Fits
  | saveAll => True

/-- A world and the blocks that were placed in it, the last one first. -/
structure Ledger where
  world : World
  placed : List (Pos × BlockId)

namespace Ledger

/-- Nothing has been placed yet. -/
def start (w : World) : Ledger := ⟨w, []⟩

/-- One request. An edit is noted if it reports a change. -/
def perform (l : Ledger) : Request → Checked Ledger
  | .generate c => do
    let (_, w) ← l.world.generate c
    return { l with world := w }
  | .process c => do
    let (_, w) ← l.world.process c
    return { l with world := w }
  | .relight c => do
    let (_, w) ← l.world.updateLight c
    return { l with world := w }
  | .edit p id => do
    let (changed, w) ← l.world.setBlock p id
    return ⟨w, if changed then (p, id) :: l.placed else l.placed⟩
  | .load c => do
    let (_, w) ← l.world.loadOrCreate c
    return { l with world := w }
  | .unload c => return { l with world := (l.world.unload c).2 }
  | .unloadOutside arrange center radius => do
    let (_, w) ← l.world.unloadOutsideBy ChunkFiles.save (arrange l.world.store) center radius
    return { l with world := w }
  | .saveAll => return { l with world := l.world.saveAll.2 }

def performAll (l : Ledger) (requests : List Request) : Checked Ledger := requests.foldlM perform l

/-- The block that was placed last at a position, or the given one if there is none. -/
def block (l : Ledger) (given : Pos → BlockId) (p : Pos) : BlockId :=
  (l.placed.lookup p).getD (given p)

variable {l : Ledger} {given : Pos → BlockId} {w : World} {p : Pos} {id : BlockId}

/-- An edit that is noted changes the map in its place. -/
theorem block_note {changed : Bool} :
    block ⟨w, if changed then (p, id) :: l.placed else l.placed⟩ given =
      if changed then Function.update (l.block given) p id else l.block given := by
  cases changed with
  | false => rfl
  | true =>
    funext q
    show (List.lookup q ((p, id) :: l.placed)).getD (given q) =
      Function.update (l.block given) p id q
    rw [List.lookup_cons]
    by_cases hq : q = p
    · subst hq
      rw [Function.update_self, beq_self_eq_true]
      rfl
    · rw [Function.update_of_ne hq, beq_false_of_ne hq]
      rfl

end Ledger

/-- A pass that succeeds fills the chunk. -/
theorem Chunk.populate_of_ok {c : Chunk} {blocks : BlockArray c.dims}
    {pass : ChunkCoord → (d : Dims) → BlockArray d → Checked (BlockArray d)}
    (h : pass c.coord c.dims c.blocks = .ok blocks) : c.populate pass = .ok { c with blocks } := by
  rcases c with ⟨coord, dims, old, skyLight, blockLight, life⟩
  unfold populate
  simp only [h]
  rfl

namespace World

variable {w w₀ : World} {f : ChunkFiles} {c : ChunkCoord} {chunk : Chunk} {p : Pos} {id : BlockId}
  {l : Ledger} {r : Request} {requests : List Request}

/-! ## Where runs start -/

/-- The block that the generators give to a position. -/
def generatedBlock (w : World) (p : Pos) : BlockId :=
  let filled := do
    let chunk ← Chunk.new (p.home w.dims) w.dims
    chunk.populate w.generators.runAll
  match filled with
  | .ok chunk => chunk.block (p.cell w.dims).x (p.cell w.dims).y (p.cell w.dims).z
  | .error _ => air

/-- A new chunk is filled with these blocks. -/
theorem promises_generatedBlock (hd : w.dims.Valid) (hnew : Chunk.new c w.dims = .ok chunk) :
    chunk.Promises w.generators w.generatedBlock := by
  intro blocks hrun x y z hin
  rcases Chunk.new_spec hnew with ⟨hcoord, hdims, -⟩
  have hd' : chunk.dims.Valid := by
    rw [hdims]
    exact hd
  rcases Chunk.split_place hd' hin with ⟨hhome, hx, hy, hz⟩
  rw [hcoord, hdims] at hhome
  rw [hdims] at hx hy hz
  unfold generatedBlock
  rw [hhome, hnew, hx, hy, hz]
  show blocks.get x y z = match chunk.populate w.generators.runAll with
    | .ok chunk' => chunk'.block x y z
    | .error _ => air
  rw [Chunk.populate_of_ok hrun]
  rfl

/-- A world without chunks that saves them, but has not saved any, of a configuration that was let
through. -/
structure Unsaved (f : ChunkFiles) (w : World) : Prop extends Serviced f w where
  valid : w.config.validate = .ok ()
  store : w.store = .empty
  unsaved : ∀ c : ChunkCoord, c.Fits → w.disk.get? (f.path c) = none

namespace Unsaved

theorem valid_dims (h : Unsaved f w) : w.dims.Valid := Dims.Valid.of_validate h.valid

theorem chunkAt? (h : Unsaved f w) : w.chunkAt? c = none := by
  unfold World.chunkAt?
  rw [h.store]
  exact ChunkStore.getAt?_empty

/-- Only new chunks can come in. -/
theorem new_of_brings (h : Unsaved f w) (hfits : c.Fits) (hbrings : w.Brings c chunk) :
    Chunk.new c w.dims = .ok chunk := by
  have hsaved := saved?_of_load h.files
    (ChunkFiles.load_of_no_file h.serves hfits (h.unsaved c hfits))
  rcases hbrings with hfound | ⟨-, hnew⟩
  · rw [hsaved] at hfound
    cases hfound
  · exact hnew

/-- All that it has for a coordinate are new chunks. -/
theorem fresh_of_offers (h : Unsaved f w) (ho : w.Offers c chunk) : chunk.isFresh = true := by
  rcases ho with hc | ⟨-, hfits, hbrings⟩
  · rw [h.chunkAt?] at hc
    cases hc
  · exact (Chunk.new_spec (h.new_of_brings hfits hbrings)).2.2.isFresh

/-- The blocks of an unsaved world are those that the generators give. -/
theorem archived (h : Unsaved f w) : w.Archived w.generatedBlock where
  valid := h.valid_dims
  intact := by
    rw [h.store]
    exact ChunkStore.intact_empty
  resident c chunk hc := by
    rw [h.chunkAt?] at hc
    cases hc
  absent c chunk hfits _ hbrings := by
    have hnew := h.new_of_brings hfits hbrings
    refine ⟨fun hfresh => ?_, fun _ => promises_generatedBlock h.valid_dims hnew⟩
    rw [(Chunk.new_spec hnew).2.2.isFresh] at hfresh
    cases hfresh

end Unsaved

/-! ## Requests -/

/-- The world shows what the ledger of a run from `w₀` says, and still saves its chunks. -/
structure Kept (f : ChunkFiles) (w₀ : World) (l : Ledger) : Prop where
  archived : l.world.Archived (l.block w₀.generatedBlock)
  serviced : Serviced f l.world
  setup : SameSetup w₀ l.world

namespace Kept

/-- At first the ledger is empty, and the blocks are the generated ones. -/
theorem start (h : Unsaved f w₀) : Kept f w₀ (.start w₀) :=
  ⟨h.archived, h.toServiced, SameSetup.refl⟩

/-- The map stays as it is if no disk and no file is touched. -/
theorem next (h : Kept f w₀ l) (harch : w.Archived (l.block w₀.generatedBlock))
    (hbase : SameBase l.world w) : Kept f w₀ { l with world := w } :=
  ⟨harch, h.serviced.base hbase, h.setup.trans hbase.setup⟩

/-- An edit is noted if it changed something, and then the note is what the world shows. -/
theorem edit (h : Kept f w₀ l) (hx : FitsCoord p.x) (hz : FitsCoord p.z) :
    Ensures True (l.perform (.edit p id)) (Kept f w₀) := by
  apply (setBlock_archived h.archived (Room.anywhere h.archived.valid) hx hz trivial
    fun _ _ _ => trivial).bind
  rintro ⟨changed, w⟩ ⟨-, honward, harch⟩
  refine Ensures.pure ⟨?_, h.serviced.base honward.toSameBase, h.setup.trans honward.setup⟩
  rw [Ledger.block_note]
  exact harch

/-- No request gets out of step with the ledger. -/
theorem perform (h : Kept f w₀ l) (hr : r.Fits) : Ensures True (l.perform r) (Kept f w₀) := by
  have harch := h.archived
  -- only edits change blocks; the other requests move chunks between world and files
  cases r with
  | generate c =>
    apply (generate_keeps harch hr).bind
    rintro ⟨worked, w⟩ ⟨hw, honward, -⟩
    exact Ensures.pure (h.next hw honward.toSameBase)
  | process c =>
    apply (process_keeps harch hr).bind
    rintro ⟨worked, w⟩ ⟨hw, honward, -⟩
    exact Ensures.pure (h.next hw honward.toSameBase)
  | relight c =>
    apply (updateLight_keeps harch).bind
    rintro ⟨worked, w⟩ ⟨hw, honward⟩
    exact Ensures.pure (h.next hw honward.toSameBase)
  | edit p id => exact h.edit hr.1 hr.2
  | load c =>
    apply (loadOrCreate_grew harch.intact hr fun _ _ _ => trivial).bind
    rintro ⟨i, w⟩ ⟨hgrew, -⟩
    exact Ensures.pure (h.next (harch.grew hgrew) hgrew.toSameBase)
  | unload c =>
    rcases unload_archived (c := c) h.serviced harch with ⟨b, w, hunload, hw, hserviced, hsetup⟩
    show Kept f w₀ { l with world := (l.world.unload c).2 }
    rw [hunload]
    exact ⟨hw, hserviced, h.setup.trans hsetup⟩
  | unloadOutside arrange center radius =>
    apply (unloadOutsideBy_archived h.serviced harch).bind
    rintro ⟨result, w⟩ ⟨hw, hserviced, hsetup⟩
    exact Ensures.pure ⟨hw, hserviced, h.setup.trans hsetup⟩
  | saveAll =>
    rcases saveAll_archived h.serviced harch with ⟨n, w, hsave, hw, hserviced, hsetup⟩
    show Kept f w₀ { l with world := l.world.saveAll.2 }
    rw [hsave]
    exact ⟨hw, hserviced, h.setup.trans hsetup⟩

/-- Every run of requests keeps the world in step with its ledger. -/
theorem performAll (h : Kept f w₀ l) (hrs : ∀ r ∈ requests, r.Fits) :
    Ensures True (l.performAll requests) (Kept f w₀) :=
  Ensures.foldlM_inv (fun r _ hr hl => hl.perform (hrs r hr)) h

end Kept

/-- Chunks can be made, the generators fill the chunk of the coordinate, and neither it nor a chunk
that was generated lies where coordinates end. -/
structure HasRoom (w : World) (c : ChunkCoord) : Prop where
  storable : ∀ c, ∃ chunk, Chunk.new c w.dims = .ok chunk
  generators : ∀ blocks, ∃ blocks', w.generators.runAll c w.dims blocks = .ok blocks'
  own : Roomy w.dims c
  generated : ∀ c chunk, w.Offers c chunk → chunk.isFresh = false → Roomy w.dims c

namespace HasRoom

/-- Where there is room for its chunk, a request stops nowhere. -/
theorem room (hd : w.dims.Valid) :
    Room (¬ w.HasRoom c) (fun c' => w.HasRoom c → Roomy w.dims c') w where
  valid := hd
  spacious := by
    constructor
    · intro c' e he hroom
      rcases hroom.storable c' with ⟨chunk, hok⟩
      rw [hok] at he
      cases he
    · intro c' hc' hno hroom
      exact hno (hc' hroom)
  inside c' chunk ho hfresh hroom := hroom.generated c' chunk ho hfresh

/-- Generators stop only where there is no room. -/
theorem of_runAll {blocks : BlockArray w.dims} {e : Fault}
    (he : w.generators.runAll c w.dims blocks = .error e) : ¬ w.HasRoom c := by
  intro hroom
  rcases hroom.generators blocks with ⟨blocks', hok⟩
  rw [hok] at he
  cases he

end HasRoom

/-- Wherever requests have led, each generated chunk that is resident holds the blocks that were
placed last, or else those that the generators gave, through unloading and loading, and in whatever
order far chunks leave. An edit reports success exactly where it differs from these, within the
height of the world. -/
theorem refines_block_map (h : Unsaved f w₀) (hrs : ∀ r ∈ requests, r.Fits)
    (hrun : (Ledger.start w₀).performAll requests = .ok l) :
    (∀ p, InChunks l.world.dims l.world.Generated p →
      l.world.blockAt p = .ok (l.block w₀.generatedBlock p)) ∧
    ∀ p id, FitsCoord p.x → FitsCoord p.z →
      (∀ changed w, l.world.setBlock p id = .ok (changed, w) →
        (changed = true ↔ (0 ≤ p.y ∧ p.y < w₀.dims.y) ∧ id ≠ l.block w₀.generatedBlock p)) ∧
      (l.world.HasRoom (p.home l.world.dims) →
        ∃ changed w, l.world.setBlock p id = .ok (changed, w)) := by
  have hkept : Kept f w₀ l := ((Kept.start h).performAll hrs).of_eq_ok hrun
  have hdims := hkept.setup.dims
  refine ⟨fun p hp => hkept.archived.blockAt hp, fun p id hx hz => ?_⟩
  -- an edit that stops has no room
  have hedit : Ensures (¬ l.world.HasRoom (p.home l.world.dims)) (l.world.setBlock p id) _ :=
    setBlock_archived hkept.archived (HasRoom.room hkept.archived.valid) hx hz HasRoom.own
      fun _ _ => HasRoom.of_runAll
  constructor
  · intro changed w hok
    rw [← hdims]
    exact (hedit.of_eq_ok hok).1
  · intro hroom
    rcases hedit.exists_ok (not_not_intro hroom) with ⟨⟨changed, w⟩, hok, -⟩
    exact ⟨changed, w, hok⟩

/-- A small world with a save directory. -/
def shelved : World := { smallest with files := some ⟨"save"⟩ }

namespace shelved

theorem unsaved : Unsaved ⟨"save"⟩ shelved where
  files := rfl
  serves := ChunkFiles.serves_empty (by decide) (by decide)
  valid := smallest.pristine.valid
  store := rfl
  unsaved _ _ := Disk.get?_empty

/-- No pass stops in it, for there are none. -/
theorem filled (c : ChunkCoord) (blocks : BlockArray shelved.dims) (e : Fault) :
    shelved.generators.runAll c shelved.dims blocks ≠ .error e :=
  Checked.ne_error ⟨blocks, rfl⟩ e

/-- There is room for all chunks away from its borders. -/
theorem room : Room False (Roomy shelved.dims) shelved where
  valid := unsaved.valid_dims
  spacious := ⟨fun c e => smallest.storable c e, fun _ hr hno => hno hr⟩
  inside c chunk ho hfresh := by
    rw [unsaved.fresh_of_offers ho] at hfresh
    cases hfresh

theorem home_roomy : Roomy shelved.dims ⟨0, 0⟩ := smallest.roomy (by decide) (by decide)

/-- A torch is placed, its chunk is unloaded, and the chunk is asked for again. -/
def errand : List Request := [.edit ⟨0, 0, 0⟩ 1, .unload ⟨0, 0⟩, .generate ⟨0, 0⟩]

/-- All numbers of the errand fit. -/
theorem errand_fits : ∀ r ∈ errand, r.Fits := by
  unfold errand
  simp only [List.forall_mem_cons]
  exact ⟨⟨by decide, by decide⟩, ⟨by decide, by decide⟩, ⟨by decide, by decide⟩, nofun⟩

/-- None of the requests stops. -/
theorem exists_errand : ∃ w, (Ledger.start shelved).performAll errand =
    .ok ⟨w, [(⟨0, 0, 0⟩, 1)]⟩ ∧ w.Generated ⟨0, 0⟩ := by
  have h := unsaved
  have hplaced : Ensures False (shelved.setBlock ⟨0, 0, 0⟩ 1) _ :=
    setBlock_archived h.archived room (by decide) (by decide) home_roomy (filled _)
  rcases hplaced.exists_ok not_false with ⟨⟨changed, w₁⟩, hedit, hchanged, honward₁, harch₁⟩
  have htrue : changed = true := hchanged.2 ⟨by decide, by decide⟩
  simp only [htrue, if_true] at hedit honward₁ harch₁
  have hbase₁ := honward₁.toSameBase
  rcases unload_archived (c := ⟨0, 0⟩) (h.toServiced.base hbase₁) harch₁ with
    ⟨b, w₂, hunload, harch₂, hserviced₂, hsetup₂⟩
  have hsetup : SameSetup shelved w₂ := hbase₁.setup.trans hsetup₂
  -- the chunk is generated again, from its file or by the passes
  have hgen : Ensures False (w₂.generate ⟨0, 0⟩) fun r => ∃ w, Grew w₂ w ∧
      r.2.Generated ⟨0, 0⟩ ∧ (r.2 = w ∨ Refilled w r.2 ⟨0, 0⟩) := by
    apply generate_spec harch₂.intact harch₂.valid ⟨by decide, by decide⟩
    · intro chunk ho
      have hfiled := (harch₂.offers ho).1
      exact ⟨hfiled.coord, hfiled.dims⟩
    · rw [hsetup.dims]
      exact smallest.storable
    · rw [hsetup.dims]
      exact fun hno => hno home_roomy
    · rw [hsetup.dims, hsetup.generators]
      exact filled _
  -- the three requests went through one after the other; the ledger notes the first
  rcases hgen.exists_ok not_false with ⟨⟨worked, w₃⟩, hgenerate, -, -, hgenerated, -⟩
  refine ⟨w₃, ?_, hgenerated⟩
  have hfirst : (Ledger.start shelved).perform (.edit ⟨0, 0, 0⟩ 1) =
      .ok ⟨w₁, [(⟨0, 0, 0⟩, 1)]⟩ := by
    show (do
      let (changed, w) ← shelved.setBlock ⟨0, 0, 0⟩ 1
      return (⟨w, if changed then [(⟨0, 0, 0⟩, 1)] else []⟩ : Ledger)) = _
    rw [hedit]
    rfl
  have hsecond : Ledger.perform ⟨w₁, [(⟨0, 0, 0⟩, 1)]⟩ (.unload ⟨0, 0⟩) =
      .ok ⟨w₂, [(⟨0, 0, 0⟩, 1)]⟩ := by
    show Except.ok (⟨(w₁.unload ⟨0, 0⟩).2, _⟩ : Ledger) = _
    rw [hunload]
  have hthird : Ledger.perform ⟨w₂, [(⟨0, 0, 0⟩, 1)]⟩ (.generate ⟨0, 0⟩) =
      .ok ⟨w₃, [(⟨0, 0, 0⟩, 1)]⟩ := by
    show (do
      let (_, w) ← w₂.generate ⟨0, 0⟩
      return (⟨w, [(⟨0, 0, 0⟩, 1)]⟩ : Ledger)) = _
    rw [hgenerate]
    rfl
  unfold Ledger.performAll errand
  simp only [List.foldlM_cons, List.foldlM_nil]
  exact Checked.bind_eq_ok.2 ⟨_, hfirst, Checked.bind_eq_ok.2 ⟨_, hsecond,
    Checked.bind_eq_ok.2 ⟨_, hthird, rfl⟩⟩⟩

end shelved

/-- A torch that was placed is there again after its chunk was unloaded. -/
theorem refines_block_map_shelved : ∃ l,
    (Ledger.start shelved).performAll shelved.errand = .ok l ∧
      l.world.blockAt ⟨0, 0, 0⟩ = .ok 1 ∧
      ∀ changed w, l.world.setBlock ⟨0, 0, 0⟩ 1 = .ok (changed, w) → changed = false := by
  rcases shelved.exists_errand with ⟨w, hrun, hgenerated⟩
  rcases refines_block_map shelved.unsaved shelved.errand_fits hrun with ⟨hread, hedits⟩
  have hkept : Kept ⟨"save"⟩ shelved ⟨w, [(⟨0, 0, 0⟩, 1)]⟩ :=
    ((Kept.start shelved.unsaved).performAll shelved.errand_fits).of_eq_ok hrun
  have hdims : w.dims = shelved.dims := hkept.setup.dims
  have hin : InChunks w.dims w.Generated ⟨0, 0, 0⟩ := by
    rw [hdims]
    exact ⟨_, rfl, hgenerated⟩
  refine ⟨_, hrun, hread _ hin, fun changed w' hok => ?_⟩
  rw [← Bool.not_eq_true]
  intro hchanged
  exact (((hedits _ _ (by decide) (by decide)).1 changed w' hok).1 hchanged).2 rfl

end World

end VoxelWorld
