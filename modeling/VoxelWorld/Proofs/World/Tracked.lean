import VoxelWorld.Proofs.World.Field

/-!
# Proofs.World.Tracked — what a write leaves alone

* `Framed` relates worlds that differ in cells and dirty flags, where blank chunks may have
  come in.
* `Tracked` adds that no chunk that sees a difference is clean: a chunk sees its own columns
  and those beside them (`Sees`).
* `SetAt.framed` is the frame of an operation that sets a single chunk.
* `loadOrCreate_ensures` and `markNeighborsDirty_ensures` are the two operations that bring
  blank chunks in.
* `touched_of_sees` is why the right neighbours are marked.
-/

namespace VoxelWorld

/-- The chunk is the same but for its cells and its dirty flag, which was not cleared. -/
structure Chunk.Kept (c c' : Chunk) : Prop where
  dims : c'.dims = c.dims
  life : c'.life = { c.life with dirty := c'.life.dirty }
  dirty : c'.isDirty = false → c.isDirty = false

namespace Chunk.Kept

variable {c c' c'' : Chunk}

theorem refl : c.Kept c := ⟨rfl, rfl, id⟩

theorem trans (h : c.Kept c') (h' : c'.Kept c'') : c.Kept c'' where
  dims := h'.dims.trans h.dims
  life := by rw [h'.life, h.life]
  dirty hd := h.dirty (h'.dirty hd)

theorem isFresh (h : c.Kept c') : c'.isFresh = c.isFresh := by
  unfold Chunk.isFresh
  rw [h.life]

theorem isLightDirty (h : c.Kept c') : c'.isLightDirty = c.isLightDirty := by
  unfold Chunk.isLightDirty
  rw [h.life]

theorem withDirty : c.Kept (c.withDirty true) := ⟨rfl, rfl, nofun⟩

end Chunk.Kept

namespace World

variable {w w' w'' : World} {c c' : ChunkCoord} {p : Pos} {cell : Cell} {chunk chunk' : Chunk}

/-! ## Frames -/

/-- The worlds differ in cells, dirty flags and counts, and blank chunks may have come in. -/
structure Framed (w w' : World) : Prop where
  rest : w' = { w with store := w'.store, stats := w'.stats }
  sound : w'.Sound
  kept : ∀ c chunk, w.chunkAt? c = some chunk →
    ∃ chunk', w'.chunkAt? c = some chunk' ∧ chunk.Kept chunk'
  new : ∀ c chunk', w.chunkAt? c = none → w'.chunkAt? c = some chunk' → chunk'.Blank

namespace Framed

theorem refl (h : w.Sound) : Framed w w where
  rest := rfl
  sound := h
  kept _ chunk hc := ⟨chunk, hc, Chunk.Kept.refl⟩
  new c chunk' hnone hsome := by
    rw [hnone] at hsome
    cases hsome

theorem dims (h : Framed w w') : w'.dims = w.dims := by
  rw [h.rest]
  rfl

theorem registry (h : Framed w w') : w'.registry = w.registry := by
  rw [h.rest]

/-- A chunk that is there after all was there before, or is blank. -/
theorem back (h : Framed w w') (hc : w'.chunkAt? c = some chunk') :
    (∃ chunk, w.chunkAt? c = some chunk ∧ chunk.Kept chunk') ∨
      w.chunkAt? c = none ∧ chunk'.Blank := by
  cases hw : w.chunkAt? c with
  | none => exact .inr ⟨rfl, h.new c chunk' hw hc⟩
  | some chunk =>
    rcases h.kept c chunk hw with ⟨chunk'', hc', hk⟩
    rw [hc] at hc'
    cases hc'
    exact .inl ⟨chunk, rfl, hk⟩

theorem trans (h : Framed w w') (h' : Framed w' w'') : Framed w w'' where
  rest := by rw [h'.rest, h.rest]
  sound := h'.sound
  kept c chunk hc := by
    rcases h.kept c chunk hc with ⟨chunk', hc', hk⟩
    rcases h'.kept c chunk' hc' with ⟨chunk'', hc'', hk'⟩
    exact ⟨chunk'', hc'', hk.trans hk'⟩
  new c chunk'' hnone hsome := by
    rcases h'.back hsome with ⟨chunk', hc', hk⟩ | ⟨-, hblank⟩
    · have hblank := h.new c chunk' hnone hc'
      -- a blank chunk is fresh, and a fresh chunk of a sound world is blank
      exact h'.sound.fresh c chunk'' hsome (hk.isFresh.trans hblank.isFresh)
    · exact hblank

/-- The same chunks are generated, for blank ones are fresh. -/
theorem generated (h : Framed w w') : w'.Generated c ↔ w.Generated c := by
  constructor
  · rintro ⟨chunk', hc', hf⟩
    rcases h.back hc' with ⟨chunk, hc, hk⟩ | ⟨-, hblank⟩
    · exact ⟨chunk, hc, hk.isFresh.symm.trans hf⟩
    · rw [hblank.isFresh] at hf
      cases hf
  · rintro ⟨chunk, hc, hf⟩
    rcases h.kept c chunk hc with ⟨chunk', hc', hk⟩
    exact ⟨chunk', hc', hk.isFresh.trans hf⟩

theorem generated_eq (h : Framed w w') : w'.Generated = w.Generated :=
  funext fun _ => propext h.generated

end Framed

/-- The worlds are framed, and a clean chunk sees no difference. -/
structure Tracked (w w' : World) : Prop extends Framed w w' where
  clean : ∀ c chunk', w'.chunkAt? c = some chunk' → chunk'.isDirty = false →
    ∀ p, Sees w.dims c p → w'.field.SameAt w.field p

namespace Tracked

/-- Where the field is the same no chunk sees a difference. -/
theorem of_field_eq (h : Framed w w') (hfield : w'.field = w.field) : Tracked w w' where
  toFramed := h
  clean c chunk' _ _ p _ := by
    rw [hfield]
    exact LightField.SameAt.refl

theorem refl (h : w.Sound) : Tracked w w := of_field_eq (Framed.refl h) rfl

/-- A clean chunk was there before and was clean. -/
theorem clean_back (h : Tracked w w') (hc : w'.chunkAt? c = some chunk')
    (hclean : chunk'.isDirty = false) :
    ∃ chunk, w.chunkAt? c = some chunk ∧ chunk.Kept chunk' ∧ chunk.isDirty = false := by
  rcases h.back hc with ⟨chunk, hc', hk⟩ | ⟨-, hblank⟩
  · exact ⟨chunk, hc', hk, hk.dirty hclean⟩
  · rw [hblank.isDirty] at hclean
    cases hclean

/-- A chunk that is clean in the end was clean all the way, since marks are not taken off. -/
theorem trans (h : Tracked w w') (h' : Tracked w' w'') : Tracked w w'' where
  toFramed := h.toFramed.trans h'.toFramed
  clean c chunk'' hc hclean p hp := by
    rcases h'.clean_back hc hclean with ⟨chunk', hc', -, hclean'⟩
    have hp' := hp
    rw [← h.dims] at hp'
    exact (h'.clean c chunk'' hc hclean p hp').trans (h.clean c chunk' hc' hclean' p hp)

end Tracked

/-! ## Changing one chunk -/

/-- Only the chunk of the coordinate changes. -/
theorem chunkAt?_modifyAt (h : w.Sound) (f : Chunk → Chunk) : (w.modifyAt c f).chunkAt? c' =
    if c' = c then (w.chunkAt? c).map f else w.chunkAt? c' :=
  ChunkStore.getAt?_modifyAt h.store

/-- Changing the chunk of an id that its coordinate leads to. -/
theorem modify_eq_modifyAt {id : ChunkId} (hid : w.store.idOf? c = some id) (f : Chunk → Chunk) :
    w.modify id f = w.modifyAt c f := by
  unfold modify modifyAt ChunkStore.modifyAt
  rw [hid]

/-- The resident chunk of an id. -/
theorem chunkAt?_eq_some : w.chunkAt? c = some chunk ↔
    ∃ id, w.store.idOf? c = some id ∧ w.store.get? id = some chunk :=
  ChunkStore.getAt?_eq_some

/-- Changing a resident chunk. -/
theorem setAt_modifyAt (h : w.Sound) (hc : w.chunkAt? c = some chunk) (f : Chunk → Chunk) :
    SetAt w (w.modifyAt c f) c (f chunk) := by
  intro c'
  rw [chunkAt?_modifyAt h, hc]
  rfl

/-- The chunk that was set is blank, or is the one that was there but for cells and dirty flag. -/
theorem SetAt.framed (h : SetAt w w' c chunk)
    (hrest : w' = { w with store := w'.store, stats := w'.stats }) (hsound : w'.Sound)
    (hkept : ∀ old, w.chunkAt? c = some old → old.Kept chunk)
    (hblank : w.chunkAt? c = none → chunk.Blank) : Framed w w' where
  rest := hrest
  sound := hsound
  kept c' old hold := by
    by_cases hcc : c' = c
    · subst hcc
      exact ⟨chunk, h.self, hkept old hold⟩
    · exact ⟨old, (h.other hcc).trans hold, Chunk.Kept.refl⟩
  new c' chunk' hnone hc' := by
    rcases h.back hc' with ⟨rfl, rfl⟩ | ⟨-, hold⟩
    · exact hblank hnone
    · rw [hnone] at hold
      cases hold

/-- Changing the cells of one chunk is within a frame. -/
theorem framed_modifyAt (h : w.Sound) {f : Chunk → Chunk} (hcoord : ∀ c, (f c).coord = c.coord)
    (hc : w.chunkAt? c = some chunk) (hkept : chunk.Kept (f chunk))
    (hblank : chunk.isFresh = true → (f chunk).Blank) : Framed w (w.modifyAt c f) := by
  have hset := setAt_modifyAt h hc f
  have hsound : (w.modifyAt c f).Sound := by
    refine hset.sound h rfl rfl (h.store.modifyAt fun c _ => hcoord c)
      (hkept.dims.trans (h.dims c chunk hc)) (fun hfresh => ?_) (h.storable c chunk hc)
    exact hblank (hkept.isFresh.symm.trans hfresh)
  refine hset.framed rfl hsound (fun old hold => ?_) fun hnone => ?_
  · rw [hc] at hold
    cases hold
    exact hkept
  · rw [hc] at hnone
    cases hnone

/-- Marking a chunk dirty changes nothing that can be read. -/
theorem framed_markDirty (h : w.Sound) (hc : w.chunkAt? c = some chunk) :
    Framed w (w.modifyAt c (·.withDirty true)) ∧
      (w.modifyAt c (·.withDirty true)).field = w.field := by
  constructor
  · exact framed_modifyAt h (fun _ => rfl) hc Chunk.Kept.withDirty fun hfresh =>
      (h.fresh c chunk hc hfresh).withDirty
  · apply (setAt_modifyAt h hc _).field_eq h rfl
    · rw [hc]
      rfl
    · intro cell _
      rw [hc]
      exact ⟨rfl, fun _ => rfl⟩

/-! ## Bringing chunks in -/

/-- Making a chunk that is not resident. -/
theorem makeResident_spec (h : w.Sound) (hnone : w.chunkAt? chunk.coord = none)
    (hnew : Chunk.new chunk.coord w.dims = .ok chunk) :
    Framed w (w.makeResident chunk).2 ∧ (w.makeResident chunk).2.field = w.field ∧
      (w.makeResident chunk).2.store.idOf? chunk.coord = some (w.makeResident chunk).1 ∧
      SetAt w (w.makeResident chunk).2 chunk.coord chunk := by
  rcases Chunk.new_spec hnew with ⟨-, hdims, hblank⟩
  rcases ChunkStore.insert_spec h.store w.gpu (h.store.idOf?_eq_none.2 hnone) with ⟨hgpu, hplaced⟩
  have hset : SetAt w (w.makeResident chunk).2 chunk.coord chunk := fun c =>
    hplaced.getAt? h.store
  have hsound : (w.makeResident chunk).2.Sound :=
    hset.sound h rfl rfl (hplaced.wellFormed h.store) hdims (fun _ => hblank) ⟨chunk, hnew⟩
  refine ⟨hset.framed ?_ hsound (fun old hold => ?_) fun _ => hblank, ?_, hplaced.idOf?, hset⟩
  · show { w with store := _, gpu := (w.store.insert chunk w.gpu).gpu } = _
    rw [hgpu]
    rfl
  · rw [hnone] at hold
    cases hold
  · -- a blank chunk shows what is seen where there is none
    apply hset.field_eq h rfl
    · rw [hnone]
      show (!chunk.isFresh) = false
      rw [hblank.isFresh]
      rfl
    · intro cell hcell
      rw [hnone]
      rw [← hdims] at hcell
      exact ⟨hblank.blockIn, fun k => hblank.lightIn hcell k⟩

variable {faulty : Prop}

/-- The chunk of a coordinate is resident afterwards; if it was not, it is blank. -/
theorem loadOrCreate_ensures (h : w.Sound) (hnew : ∀ e, Chunk.new c w.dims = .error e → faulty) :
    Ensures faulty (w.loadOrCreate c) fun r => Framed w r.2 ∧ r.2.field = w.field ∧
      r.2.store.idOf? c = some r.1 ∧
      ∃ chunk, (w.chunkAt? c = some chunk ∨ w.chunkAt? c = none ∧ chunk.Blank) ∧
        SetAt w r.2 c chunk := by
  unfold loadOrCreate
  cases hid : w.store.idOf? c with
  | some id =>
    rcases h.store.get? hid with ⟨chunk, hget, _⟩
    have hc : w.chunkAt? c = some chunk := chunkAt?_eq_some.2 ⟨id, hid, hget⟩
    refine Ensures.pure ⟨Framed.refl h, rfl, hid, chunk, .inl hc, fun c' => ?_⟩
    by_cases hcc : c' = c
    · rw [if_pos hcc, hcc, hc]
    · rw [if_neg hcc]
  | none =>
    have hnone : w.chunkAt? c = none := h.store.idOf?_eq_none.1 hid
    have hload : w.loadSaved c = .ok (none, w) := by
      unfold loadSaved
      rw [h.files]
      rfl
    simp only [hload]
    refine Ensures.bind_eq (a := (none, w)) (Ensures.ok rfl) ?_
    refine Ensures.bind (P := fun chunk => Chunk.new c w.dims = .ok chunk)
      (Ensures.intro (fun _ ha => ha) hnew) ?_
    intro chunk hchunk
    rcases Chunk.new_spec hchunk with ⟨rfl, -, hblank⟩
    -- the count of created chunks plays no part
    let w₁ : World := { w with stats := { w.stats with created := w.stats.created + 1 } }
    have hsound : w₁.Sound := ⟨h.valid, h.files, h.store, h.dims, h.fresh, h.storable⟩
    rcases makeResident_spec (w := w₁) hsound hnone hchunk with ⟨hframed, hfield, hid', hset⟩
    have hstep : Framed w w₁ := ⟨rfl, hsound, (Framed.refl h).kept, (Framed.refl h).new⟩
    exact Ensures.pure ⟨hstep.trans hframed, hfield, hid', chunk, .inr ⟨hnone, hblank⟩, hset⟩

/-! ## Marking -/

/-- Where nothing stops: chunks can be made, and there is room around the chunks of a set. -/
structure Spacious (faulty : Prop) (d : Dims) (R : ChunkCoord → Prop) : Prop where
  storable : ∀ c e, Chunk.new c d = .error e → faulty
  roomy : ∀ c, R c → ¬ Roomy d c → faulty

variable {R : ChunkCoord → Prop}

/-- If there is a chunk at the coordinate, then it is dirty. -/
def DirtyAt (w : World) (c : ChunkCoord) : Prop :=
  ∀ chunk, w.chunkAt? c = some chunk → chunk.isDirty = true

/-- No chunk gets clean, and none comes in clean. -/
theorem Framed.dirtyAt (h : Framed w w') (hdirty : w.DirtyAt c) : w'.DirtyAt c := by
  intro chunk' hc'
  by_contra hclean
  have hclean : chunk'.isDirty = false := Bool.not_eq_true _ ▸ hclean
  rcases h.back hc' with ⟨chunk, hc, hk⟩ | ⟨-, hblank⟩
  · have hold := hdirty chunk hc
    rw [hk.dirty hclean] at hold
    cases hold
  · rw [hblank.isDirty] at hclean
    cases hclean

/-- One neighbour is made resident and dirty, and nothing else happens. -/
theorem markNeighbor_ensures (h : w.Sound) (hnew : ∀ c e, Chunk.new c w.dims = .error e → faulty)
    {o : Int × Int} (hoff : Ensures faulty (c.offset o.1 o.2) (· = c.beside o)) :
    Ensures faulty (do
      let (id, w) ← loadOrCreate w (← c.offset o.1 o.2)
      return w.modify id (·.withDirty true)) fun w' =>
      Framed w w' ∧ w'.field = w.field ∧ w'.DirtyAt (c.beside o) := by
  apply hoff.bind_eq
  apply (loadOrCreate_ensures h fun e he => hnew _ e he).bind
  intro r hr
  rcases r with ⟨id, w₁⟩
  rcases hr with ⟨hframed, hfield, hid, chunk, -, hset⟩
  rcases framed_markDirty hframed.sound hset.self with ⟨hframed', hfield'⟩
  apply Ensures.pure
  rw [modify_eq_modifyAt hid]
  refine ⟨hframed.trans hframed', hfield'.trans hfield, fun chunk' hc' => ?_⟩
  rw [(setAt_modifyAt hframed.sound hset.self _).self] at hc'
  cases hc'
  rfl

/-- The touched chunks are dirty afterwards, and nothing else happens. -/
theorem markNeighborsDirty_of_offset (h : w.Sound)
    (hnew : ∀ c e, Chunk.new c w.dims = .error e → faulty)
    (hoff : ∀ o ∈ neighborOffsets, Ensures faulty (c.offset o.1 o.2) (· = c.beside o))
    {x z : Nat} (hx : x < w.dims.x) (hz : z < w.dims.z) :
    Ensures faulty (w.markNeighborsDirty c x z) fun w' => Framed w w' ∧ w'.field = w.field ∧
      ∀ i ∈ touchedNeighbors (x == 0) (x + 1 == w.dims.x) (z == 0) (z + 1 == w.dims.z),
        w'.DirtyAt (c.beside (neighborOffsets.getD i (0, 0))) := by
  unfold markNeighborsDirty
  rw [boundaryNeighbors_eq h.valid hx hz]
  -- the neighbours that had their turn are dirty, and stay so
  refine (Ensures.foldlM_all (G := fun w' => Framed w w' ∧ w'.field = w.field)
    (T := fun u v => ∀ c', u.DirtyAt c' → v.DirtyAt c')
    (P := fun i w' => w'.DirtyAt (c.beside (neighborOffsets.getD i (0, 0))))
    (fun _ _ hd => hd) (fun _ _ _ huv hvw c' hd => hvw c' (huv c' hd))
    (fun i u v hT hd => hT _ hd) (fun i u hi hu => ?_) ⟨Framed.refl h, rfl⟩).mono ?_
  · rcases hu with ⟨hframed, hfield⟩
    rw [← hframed.dims] at hnew
    apply (markNeighbor_ensures hframed.sound hnew (hoff _ (neighborOffsets_getD hi))).mono
    intro v hv
    rcases hv with ⟨hframed', hfield', hdirty⟩
    exact ⟨⟨hframed.trans hframed', hfield'.trans hfield⟩, fun _ => hframed'.dirtyAt, hdirty⟩
  · intro v hv
    rcases hv with ⟨⟨hframed, hfield⟩, -, hdirty⟩
    exact ⟨hframed, hfield, hdirty⟩

/-- Where there is room, every neighbour that sees the cell is marked. -/
theorem markNeighborsDirty_ensures (h : w.Sound) (hspace : Spacious faulty w.dims R)
    (hR : R c) {x z : Nat} (hx : x < w.dims.x) (hz : z < w.dims.z) :
    Ensures faulty (w.markNeighborsDirty c x z) fun w' => Framed w w' ∧ w'.field = w.field ∧
      ∀ i ∈ touchedNeighbors (x == 0) (x + 1 == w.dims.x) (z == 0) (z + 1 == w.dims.z),
        w'.DirtyAt (c.beside (neighborOffsets.getD i (0, 0))) :=
  markNeighborsDirty_of_offset h hspace.storable
    (fun _ ho => offset_ensures h.valid (hspace.roomy c hR) ho) hx hz

/-! ## Writing a cell -/

/-- A change of one cell shows at its own position only. -/
theorem sameAt_modifyAt (h : w.Sound) (hs : p.split w.dims = .ok (some cell))
    {f : Chunk → Chunk} (hc : w.chunkAt? cell.chunk = some chunk) (hkept : chunk.Kept (f chunk))
    (hcells : ∀ x y z, ¬ (x = (cell.x : Int) ∧ y = (cell.y : Int) ∧ z = (cell.z : Int)) →
      (f chunk).block x y z = chunk.block x y z ∧
      ∀ k, (f chunk).light x y z k = chunk.light x y z k) {q : Pos} (hq : q ≠ p) :
    (w.modifyAt cell.chunk f).field.SameAt w.field q := by
  refine sameAt_of_chunks h.valid rfl fun cell' hs' => ?_
  rw [chunkAt?_modifyAt h]
  by_cases hcc : cell'.chunk = cell.chunk
  · rw [if_pos hcc, hcc, hc]
    -- positions of one chunk with the same cell are the same
    have hne : ¬ ((cell'.x : Int) = cell.x ∧ (cell'.y : Int) = cell.y ∧
        (cell'.z : Int) = cell.z) := by
      rintro ⟨hx, hy, hz⟩
      have heq : cell' = cell := by
        rcases cell with ⟨c₁, x₁, y₁, z₁⟩
        rcases cell' with ⟨c₂, x₂, y₂, z₂⟩
        simp only at hcc hx hy hz
        rw [hcc, Int.ofNat_inj.1 hx, Int.ofNat_inj.1 hy, Int.ofNat_inj.1 hz]
      rw [heq] at hs'
      exact hq (Pos.split_inj h.valid hs' hs)
    rcases hcells _ _ _ hne with ⟨hblock, hlight⟩
    refine ⟨?_, hblock, hlight⟩
    show (!(f chunk).isFresh) = (!chunk.isFresh)
    rw [hkept.isFresh]
  · rw [if_neg hcc]
    exact ⟨rfl, rfl, fun _ => rfl⟩

/-- What is read at a cell whose chunk was changed. -/
theorem field_modifyAt_self (h : w.Sound) (hs : p.split w.dims = .ok (some cell))
    {f : Chunk → Chunk} (hc : w.chunkAt? cell.chunk = some chunk) :
    (w.modifyAt cell.chunk f).field.accepts p = !(f chunk).isFresh ∧
      (w.modifyAt cell.chunk f).field.block p = (f chunk).block cell.x cell.y cell.z ∧
      ∀ k, (w.modifyAt cell.chunk f).field.level k p =
        (f chunk).light cell.x cell.y cell.z k := by
  have hat := (setAt_modifyAt h hc f).self
  have hread := field_of_split (w := w.modifyAt cell.chunk f) h.valid hs
  rw [hat] at hread
  exact hread

/-- What is read at a cell of a resident chunk. -/
theorem field_self (h : w.Sound) (hs : p.split w.dims = .ok (some cell))
    (hc : w.chunkAt? cell.chunk = some chunk) :
    w.field.accepts p = !chunk.isFresh ∧
      w.field.block p = chunk.block cell.x cell.y cell.z ∧
      ∀ k, w.field.level k p = chunk.light cell.x cell.y cell.z k := by
  have hread := field_of_split h.valid hs
  rw [hc] at hread
  exact hread

/-- Where a write would change nothing, the block is there already. -/
theorem block_of_same {id : BlockId} (h : w.Sound) (hs : p.split w.dims = .ok (some cell))
    (hc : w.chunkAt? cell.chunk = some chunk)
    (hsame : ¬ chunk.blockDiffers cell.x cell.y cell.z id = true) : w.field.block p = id := by
  rw [(field_self h hs hc).2.1]
  by_contra hne
  exact hsame (Chunk.blockDiffers_iff.2 ⟨h.chunk_contains hs hc, hne⟩)

/-- Writing a cell of a generated chunk and marking the chunks around it. -/
theorem writeCell_ensures (h : w.Sound) (hspace : Spacious faulty w.dims R)
    (hs : p.split w.dims = .ok (some cell)) (hR : R cell.chunk) {f : Chunk → Chunk}
    (hcoord : ∀ c, (f c).coord = c.coord) (hc : w.chunkAt? cell.chunk = some chunk)
    (hfresh : chunk.isFresh = false) (hkept : chunk.Kept (f chunk))
    (hdirty : (f chunk).isDirty = true)
    (hcells : ∀ x y z, ¬ (x = (cell.x : Int) ∧ y = (cell.y : Int) ∧ z = (cell.z : Int)) →
      (f chunk).block x y z = chunk.block x y z ∧
      ∀ k, (f chunk).light x y z k = chunk.light x y z k) :
    Ensures faulty ((w.modifyAt cell.chunk f).markNeighborsDirty cell.chunk cell.x cell.z)
      fun w' => Tracked w w' ∧ w'.field = (w.modifyAt cell.chunk f).field := by
  have hblank : chunk.isFresh = true → (f chunk).Blank := by
    intro hf
    rw [hfresh] at hf
    cases hf
  have hframed := framed_modifyAt h hcoord hc hkept hblank
  obtain ⟨hx, hz⟩ := h.cell_lt hs
  apply (markNeighborsDirty_ensures hframed.sound hspace hR hx hz).mono
  intro w' hw'
  rcases hw' with ⟨hframed', hfield, hmarked⟩
  refine ⟨⟨hframed.trans hframed', fun c chunk' hc' hclean q hq => ?_⟩, hfield⟩
  rw [hfield]
  refine sameAt_modifyAt h hs hc hkept hcells ?_
  rintro rfl
  rcases (Pos.split_eq_some h.valid).1 hs with ⟨rfl, -⟩
  -- whoever sees the cell is its own chunk or was marked
  rcases touched_of_sees h.valid hq with rfl | ⟨i, hi, rfl⟩
  · have hc₁ : (w.modifyAt (q.cell w.dims).chunk f).chunkAt? (q.home w.dims) =
        some (f chunk) := (setAt_modifyAt h hc f).self
    rcases hframed'.kept _ _ hc₁ with ⟨chunk'', hc'', hk⟩
    rw [hc'] at hc''
    cases hc''
    rw [hk.dirty hclean] at hdirty
    cases hdirty
  · have := hmarked i hi chunk' hc'
    rw [hclean] at this
    cases this

end World

end VoxelWorld
