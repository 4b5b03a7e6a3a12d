import VoxelWorld.Proofs.Light.Safe
import VoxelWorld.Proofs.Save.Disk
import VoxelWorld.Proofs.World.Meshing
import VoxelWorld.World.Edit

/-!
# Proofs.World.Residents — what happens to chunks between generation and edits

Worlds with a save directory are not `Sound`: a chunk that comes in may have been saved. What can
be said of them goes chunk by chunk.

* `Offers` are the chunks that a world has for a coordinate, whether they are resident, saved or
  have yet to be made.
* `Grew` says that resident chunks stay, that offered ones may have come in, and that only light
  and state of chunks differ (`Chunk.SameBlocks`). It is what bringing chunks in, marking them and
  writing levels do, so all floods do no more (`safeVolume`).
* `Onward` is what is left of it once chunks are filled and edited too: generated chunks stay.
-/

namespace VoxelWorld

/-- The chunks hold the same blocks. The second is as fresh as the first, and its light is dirty
only if that of the first is. -/
def Chunk.SameBlocks (c c' : Chunk) : Prop :=
  ∃ sky light life, c' = { c with skyLight := sky, blockLight := light, life := life } ∧
    life.fresh = c.life.fresh ∧ (life.lightDirty = true → c.life.lightDirty = true)

/-- The cells of the chunk, whatever state it is in. -/
def Chunk.cells (c : Chunk) : Chunk := { c with life := .new }

namespace Chunk.SameBlocks

variable {c c' c'' : Chunk}

theorem refl : c.SameBlocks c := ⟨c.skyLight, c.blockLight, c.life, rfl, rfl, id⟩

theorem trans (h : c.SameBlocks c') (h' : c'.SameBlocks c'') : c.SameBlocks c'' := by
  rcases h with ⟨sky, light, life, rfl, hfresh, hlight⟩
  rcases h' with ⟨sky', light', life', rfl, hfresh', hlight'⟩
  exact ⟨sky', light', life', rfl, hfresh'.trans hfresh, fun hd => hlight (hlight' hd)⟩

theorem coord (h : c.SameBlocks c') : c'.coord = c.coord := by
  rcases h with ⟨sky, light, life, rfl, -⟩
  rfl

theorem dims (h : c.SameBlocks c') : c'.dims = c.dims := by
  rcases h with ⟨sky, light, life, rfl, -⟩
  rfl

theorem isFresh (h : c.SameBlocks c') : c'.isFresh = c.isFresh := by
  rcases h with ⟨sky, light, life, rfl, hfresh, -⟩
  exact hfresh

theorem isLightDirty (h : c.SameBlocks c') (hc : c.isLightDirty = false) :
    c'.isLightDirty = false := by
  rcases h with ⟨sky, light, life, rfl, -, hlight⟩
  exact Bool.eq_false_iff.2 fun hd => Bool.eq_false_iff.1 hc (hlight hd)

/-- Such chunks have the same block in each cell. -/
theorem block (h : c.SameBlocks c') (x y z : Int) : c'.block x y z = c.block x y z := by
  rcases h with ⟨sky, light, life, rfl, -⟩
  rfl

/-- Other states hold the same blocks, unless they make a chunk fresh or its light dirty. -/
theorem withLife {life : Lifecycle} (hfresh : life.fresh = c.life.fresh)
    (hlight : life.lightDirty = true → c.life.lightDirty = true) :
    c.SameBlocks { c with life := life } :=
  ⟨c.skyLight, c.blockLight, life, rfl, hfresh, hlight⟩

theorem withDirty (b : Bool) : c.SameBlocks (c.withDirty b) := withLife rfl id

/-- Writing a level changes no block. -/
theorem putLight (x y z : Int) (k : LightKind) (v : Nat) :
    c.SameBlocks (c.putLight x y z k v) := by
  cases k
  · exact ⟨_, c.blockLight, c.life, rfl, rfl, id⟩
  · exact ⟨c.skyLight, _, c.life, rfl, rfl, id⟩

end Chunk.SameBlocks

namespace World

variable {w w' w'' w₀ : World} {c c' : ChunkCoord} {chunk : Chunk} {p : Pos} {cell : Cell}
  {k : LightKind} {v : Nat} {faulty : Prop} {S : ChunkCoord → Prop}

/-! ## What is there for a coordinate -/

/-- All but the chunks is the same, and no builders have come in. -/
structure SameBase (w w' : World) : Prop where
  config : w'.config = w.config
  registry : w'.registry = w.registry
  generators : w'.generators = w.generators
  files : w'.files = w.files
  disk : w'.disk = w.disk
  workers : w.workers = none → w'.workers = none

namespace SameBase

theorem refl : SameBase w w := ⟨rfl, rfl, rfl, rfl, rfl, id⟩

theorem trans (h : SameBase w w') (h' : SameBase w' w'') : SameBase w w'' where
  config := h'.config.trans h.config
  registry := h'.registry.trans h.registry
  generators := h'.generators.trans h.generators
  files := h'.files.trans h.files
  disk := h'.disk.trans h.disk
  workers hw := h'.workers (h.workers hw)

theorem dims (h : SameBase w w') : w'.dims = w.dims := by
  show w'.config.chunk = w.config.chunk
  rw [h.config]

theorem modifyAt (f : Chunk → Chunk) : SameBase w (w.modifyAt c f) := ⟨rfl, rfl, rfl, rfl, rfl, id⟩

end SameBase

/-- The chunk that the disk has for a coordinate. -/
def saved? (w : World) (c : ChunkCoord) : Checked (Option Chunk) := do
  let (found, _) ← w.loadSaved c
  return found

/-- Without files nothing is saved. -/
theorem saved?_of_no_files (h : w.files = none) : w.saved? c = .ok none := by
  unfold saved? loadSaved
  rw [h]
  rfl

/-- What is read from the files is what is saved. -/
theorem saved?_of_load {f : ChunkFiles} {found : Option Chunk} (hf : w.files = some f)
    (h : f.load w.disk c w.dims = .ok (.ok found)) : w.saved? c = .ok found := by
  unfold saved? loadSaved
  simp only [hf, h]
  rfl

/-- What a chunk's file gives decides, whatever else the disk holds. -/
theorem saved?_congr {f : ChunkFiles} (hf : w.files = some f) (hf' : w'.files = some f)
    (h : f.load w'.disk c w'.dims = f.load w.disk c w.dims) : w'.saved? c = w.saved? c := by
  unfold saved? loadSaved
  simp only [hf, hf', h]
  rcases f.load w.disk c w.dims with e | (e | found)
  all_goals rfl

/-- What is saved depends on the files and the disk alone. -/
theorem SameBase.saved? (h : SameBase w w') : w'.saved? c = w.saved? c := by
  cases hf : w.files with
  | none => rw [saved?_of_no_files hf, saved?_of_no_files (h.files.trans hf)]
  | some f =>
    apply saved?_congr hf (h.files.trans hf)
    rw [h.disk, h.dims]

/-- The chunk that would come in for a coordinate: a saved one, or else a new one. -/
def Brings (w : World) (c : ChunkCoord) (chunk : Chunk) : Prop :=
  w.saved? c = .ok (some chunk) ∨ w.saved? c = .ok none ∧ Chunk.new c w.dims = .ok chunk

/-- Over the same base the same chunks would come in. -/
theorem SameBase.brings (h : SameBase w w') : w'.Brings c chunk ↔ w.Brings c chunk := by
  unfold Brings
  rw [h.saved?, h.dims]

/-- The chunk that a world has for a coordinate, resident or not. -/
def Offers (w : World) (c : ChunkCoord) (chunk : Chunk) : Prop :=
  w.chunkAt? c = some chunk ∨ w.chunkAt? c = none ∧ c.Fits ∧ w.Brings c chunk

/-! ## Growing -/

/-- Resident chunks stay and offered chunks may have come in, and no block has changed. -/
structure Grew (w w' : World) : Prop extends SameBase w w' where
  intact : w'.store.Intact
  kept : ∀ c chunk, w.chunkAt? c = some chunk →
    ∃ chunk', w'.chunkAt? c = some chunk' ∧ chunk.SameBlocks chunk'
  back : ∀ c chunk', w'.chunkAt? c = some chunk' →
    ∃ chunk, w.Offers c chunk ∧ chunk.SameBlocks chunk'

namespace Grew

theorem refl (h : w.store.Intact) : Grew w w where
  toSameBase := SameBase.refl
  intact := h
  kept _ chunk hc := ⟨chunk, hc, Chunk.SameBlocks.refl⟩
  back _ chunk hc := ⟨chunk, .inl hc, Chunk.SameBlocks.refl⟩

/-- What the second world offers, the first one does, up to light and state. -/
theorem offers {chunk' : Chunk} (h : Grew w w') (ho : w'.Offers c chunk') :
    ∃ chunk, w.Offers c chunk ∧ chunk.SameBlocks chunk' := by
  rcases ho with hc | ⟨hnone, hfits, hbrings⟩
  · exact h.back c chunk' hc
  · refine ⟨chunk', .inr ⟨?_, hfits, h.brings.1 hbrings⟩, Chunk.SameBlocks.refl⟩
    cases hw : w.chunkAt? c with
    | none => rfl
    | some chunk =>
      rcases h.kept c chunk hw with ⟨chunk'', hc'', -⟩
      rw [hnone] at hc''
      cases hc''

/-- What was offered before the second step was offered before the first. -/
theorem trans (h : Grew w w') (h' : Grew w' w'') : Grew w w'' where
  toSameBase := h.toSameBase.trans h'.toSameBase
  intact := h'.intact
  kept c chunk hc := by
    rcases h.kept c chunk hc with ⟨chunk', hc', hsame⟩
    rcases h'.kept c chunk' hc' with ⟨chunk'', hc'', hsame'⟩
    exact ⟨chunk'', hc'', hsame.trans hsame'⟩
  back c chunk'' hc := by
    rcases h'.back c chunk'' hc with ⟨chunk', ho, hsame'⟩
    rcases h.offers ho with ⟨chunk, ho', hsame⟩
    exact ⟨chunk, ho', hsame.trans hsame'⟩

/-- Only the chunk of one coordinate is another one. -/
theorem of_setAt {chunk' : Chunk} (hbase : SameBase w w') (hintact : w'.store.Intact)
    (hset : SetAt w w' c chunk') (hoffers : w.Offers c chunk) (hsame : chunk.SameBlocks chunk') :
    Grew w w' where
  toSameBase := hbase
  intact := hintact
  kept c₁ chunk₁ hc₁ := by
    by_cases hcc : c₁ = c
    · subst hcc
      refine ⟨chunk', hset.self, ?_⟩
      rcases hoffers with hc | ⟨hnone, -⟩
      · rw [hc] at hc₁
        cases hc₁
        exact hsame
      · rw [hnone] at hc₁
        cases hc₁
    · exact ⟨chunk₁, (hset.other hcc).trans hc₁, Chunk.SameBlocks.refl⟩
  back c₁ chunk₁ hc₁ := by
    -- a chunk found afterwards is the one that was set, or was there before
    rcases hset.back hc₁ with ⟨rfl, rfl⟩ | ⟨-, hold⟩
    · exact ⟨chunk, hoffers, hsame⟩
    · exact ⟨chunk₁, .inl hold, Chunk.SameBlocks.refl⟩

end Grew

/-- Chunks that were generated stay so, and those whose light was spread stay so. -/
structure Onward (w w' : World) : Prop extends SameBase w w' where
  kept : ∀ c chunk, w.chunkAt? c = some chunk → chunk.isFresh = false →
    ∃ chunk', w'.chunkAt? c = some chunk' ∧ chunk'.isFresh = false ∧
      (chunk.isLightDirty = false → chunk'.isLightDirty = false)

namespace Onward

theorem refl : Onward w w := ⟨SameBase.refl, fun _ chunk hc hf => ⟨chunk, hc, hf, fun hl => hl⟩⟩

theorem trans (h : Onward w w') (h' : Onward w' w'') : Onward w w'' where
  toSameBase := h.toSameBase.trans h'.toSameBase
  kept c chunk hc hf := by
    rcases h.kept c chunk hc hf with ⟨chunk', hc', hf', hl'⟩
    rcases h'.kept c chunk' hc' hf' with ⟨chunk'', hc'', hf'', hl''⟩
    exact ⟨chunk'', hc'', hf'', fun hl => hl'' (hl' hl)⟩

/-- Generated chunks stay generated. -/
theorem generated (h : Onward w w') (hc : w.Generated c) : w'.Generated c := by
  rcases hc with ⟨chunk, hchunk, hf⟩
  rcases h.kept c chunk hchunk hf with ⟨chunk', hchunk', hf', -⟩
  exact ⟨chunk', hchunk', hf'⟩

/-- A chunk was set that was fresh, or of which these are as they were. -/
theorem of_setAt {chunk' : Chunk} (hbase : SameBase w w') (hset : SetAt w w' c chunk')
    (hc : w.chunkAt? c = some chunk) (hkept : chunk.isFresh = false → chunk'.isFresh = false ∧
      (chunk.isLightDirty = false → chunk'.isLightDirty = false)) : Onward w w' where
  toSameBase := hbase
  kept c₁ chunk₁ hc₁ hf₁ := by
    by_cases hcc : c₁ = c
    · subst hcc
      rw [hc] at hc₁
      cases hc₁
      exact ⟨chunk', hset.self, hkept hf₁⟩
    · exact ⟨chunk₁, (hset.other hcc).trans hc₁, hf₁, fun hl => hl⟩

end Onward

/-- A world that grew has only gone on. -/
theorem Grew.onward (h : Grew w w') : Onward w w' where
  toSameBase := h.toSameBase
  kept c chunk hc hf := by
    rcases h.kept c chunk hc with ⟨chunk', hc', hsame⟩
    exact ⟨chunk', hc', hsame.isFresh.trans hf, hsame.isLightDirty⟩

/-! ## Changing a resident chunk -/

/-- The world with another chunk in the place of a resident one. -/
theorem setAt_of_store (h : w.store.Intact) (hc : w.chunkAt? c = some chunk) {f : Chunk → Chunk}
    (hstore : w'.store = w.store.modifyAt c f) : SetAt w w' c (f chunk) := by
  intro c'
  have hc' : w.store.getAt? c = some chunk := hc
  unfold chunkAt?
  rw [hstore, ChunkStore.getAt?_modifyAt h.toWellFormed, hc', Option.map_some]

/-- A changed chunk that stays where it was is still found there. -/
theorem intact_of_store (h : w.store.Intact) (hc : w.chunkAt? c = some chunk) {f : Chunk → Chunk}
    (hstore : w'.store = w.store.modifyAt c f) (hcoord : (f chunk).coord = chunk.coord) :
    w'.store.Intact := by
  rw [hstore]
  refine h.modifyAt fun chunk₀ hget => ?_
  have hc' : w.store.getAt? c = some chunk := hc
  rw [hc'] at hget
  cases hget
  exact hcoord

/-- A chunk changed in light and state only has grown. -/
theorem grew_of_store (h : w.store.Intact) (hc : w.chunkAt? c = some chunk) {f : Chunk → Chunk}
    (hstore : w'.store = w.store.modifyAt c f) (hbase : SameBase w w')
    (hsame : chunk.SameBlocks (f chunk)) : Grew w w' :=
  Grew.of_setAt hbase (intact_of_store h hc hstore hsame.coord) (setAt_of_store h hc hstore)
    (.inl hc) hsame

/-- The chunk of an id is that of its coordinate. -/
theorem chunk_of_id {id : ChunkId} (h : w.store.Intact) (hid : w.store.idOf? c = some id) :
    ∃ chunk, w.store.get? id = some chunk ∧ w.chunkAt? c = some chunk := by
  rcases h.get? hid with ⟨chunk, hget, -⟩
  exact ⟨chunk, hget, chunkAt?_eq_some.2 ⟨id, hid, hget⟩⟩

/-! ## Bringing chunks in -/

/-- A saved chunk is neither fresh nor disposed, and has the coordinate and the size that it
should have. -/
theorem saved?_spec (h : w.saved? c = .ok (some chunk)) : chunk.coord = c ∧
    chunk.dims = w.dims ∧ chunk.isFresh = false ∧ chunk.isDisposed = false ∧
      ∃ new, Chunk.new c w.dims = .ok new := by
  unfold saved? loadSaved at h
  rcases Checked.bind_eq_ok.1 h with ⟨r, hr, hfound⟩
  have hr₁ : r.1 = some chunk := Checked.pure_eq_ok.1 hfound
  cases hf : w.files with
  | none =>
    rw [hf] at hr
    rw [← Checked.pure_eq_ok.1 hr] at hr₁
    cases hr₁
  | some f =>
    rw [hf] at hr
    rcases Checked.bind_eq_ok.1 hr with ⟨found, hload, hr⟩
    have hspec : Ensures True (f.load w.disk c w.dims) _ :=
      ChunkFiles.load_ensures fun _ _ _ => trivial
    -- a file that cannot be read is as good as none
    cases found with
    | error e =>
      rw [← Checked.pure_eq_ok.1 hr] at hr₁
      cases hr₁
    | ok found =>
      rw [← Checked.pure_eq_ok.1 hr] at hr₁
      exact hspec.of_eq_ok hload chunk (congrArg _ hr₁)

/-- A chunk that is brought lies where it is asked for, has the sides of the world, and a new one
could be made. -/
theorem Brings.spec (h : w.Brings c chunk) :
    chunk.coord = c ∧ chunk.dims = w.dims ∧ ∃ new, Chunk.new c w.dims = .ok new := by
  rcases h with hsaved | ⟨-, hnew⟩
  · rcases saved?_spec hsaved with ⟨hcoord, hdims, -, -, hnew⟩
    exact ⟨hcoord, hdims, hnew⟩
  · rcases Chunk.new_spec hnew with ⟨hcoord, hdims, -⟩
    exact ⟨hcoord, hdims, chunk, hnew⟩

/-- Reading a saved chunk counts in the statistics and does nothing else. -/
theorem loadSaved_ensures (hnew : ∀ c e, Chunk.new c w.dims = .error e → faulty) :
    Ensures faulty (w.loadSaved c) fun r =>
      w.saved? c = .ok r.1 ∧ r.2 = { w with stats := r.2.stats } := by
  have hok : Ensures faulty (w.loadSaved c) fun r => r.2 = { w with stats := r.2.stats } := by
    unfold loadSaved
    split
    · exact Ensures.pure rfl
    · apply (ChunkFiles.load_ensures hnew).bind
      intro r _
      cases r with
      | error e => exact Ensures.pure rfl
      | ok found => exact Ensures.pure rfl
  apply hok.and_eq_ok.mono
  intro r hr
  refine ⟨?_, hr.1⟩
  unfold saved?
  rw [hr.2]
  rfl

/-- Counts play no part. -/
theorem grew_stats (h : w.store.Intact) (stats : WorldStats) : Grew w { w with stats } where
  toSameBase := ⟨rfl, rfl, rfl, rfl, rfl, id⟩
  intact := h
  kept _ chunk hc := ⟨chunk, hc, Chunk.SameBlocks.refl⟩
  back _ chunk hc := ⟨chunk, .inl hc, Chunk.SameBlocks.refl⟩

/-- The chunk of a coordinate came in, and nothing else happened. -/
structure Brought (w w' : World) (c : ChunkCoord) (chunk : Chunk) : Prop extends SameBase w w' where
  brings : w.Brings c chunk
  intact : w'.store.Intact
  setAt : SetAt w w' c chunk

/-- A chunk that came in was offered. -/
theorem Brought.grew (h : Brought w w' c chunk) (hnone : w.chunkAt? c = none) (hfits : c.Fits) :
    Grew w w' :=
  Grew.of_setAt h.toSameBase h.intact h.setAt (.inr ⟨hnone, hfits, h.brings⟩)
    Chunk.SameBlocks.refl

/-- Putting a chunk into the store brings it in. -/
theorem makeResident_brought (h : w.store.Intact) (hnone : w.chunkAt? c = none)
    (hbrings : w.Brings c chunk) : Brought w (w.makeResident chunk).2 c chunk ∧
      (w.makeResident chunk).2.store.idOf? c = some (w.makeResident chunk).1 := by
  have hcoord := hbrings.spec.1
  have hid : w.store.idOf? chunk.coord = none := by
    rw [hcoord]
    exact h.toWellFormed.idOf?_eq_none.2 hnone
  rcases ChunkStore.insert_spec h.toWellFormed w.gpu hid with ⟨-, hplaced⟩
  have hset : SetAt w (w.makeResident chunk).2 chunk.coord chunk := fun c =>
    hplaced.getAt? h.toWellFormed
  have hintact := hplaced.intact h hid
  have hnew := hplaced.idOf?
  rw [hcoord] at hset hnew
  exact ⟨⟨⟨rfl, rfl, rfl, rfl, rfl, id⟩, hbrings, hintact, hset⟩, hnew⟩

/-- If there is no chunk, one comes in. -/
theorem loadOrCreate_brought (h : w.store.Intact) (hnone : w.chunkAt? c = none)
    (hnew : ∀ c e, Chunk.new c w.dims = .error e → faulty) :
    Ensures faulty (w.loadOrCreate c) fun r =>
      (∃ chunk, Brought w r.2 c chunk) ∧ r.2.store.idOf? c = some r.1 := by
  unfold loadOrCreate
  rw [h.toWellFormed.idOf?_eq_none.2 hnone]
  apply (loadSaved_ensures hnew).bind
  rintro ⟨found, w₁⟩ ⟨hsaved, hw₁⟩
  simp only at hsaved hw₁
  have hdims : w₁.dims = w.dims := by
    rw [hw₁]
    rfl
  -- whatever comes in, only counts change before
  have hin : ∀ u : World, u = { w with stats := u.stats } → ∀ chunk, w.Brings c chunk →
      (∃ found, Brought w (u.makeResident chunk).2 c found) ∧
        (u.makeResident chunk).2.store.idOf? c = some (u.makeResident chunk).1 := by
    intro u hu chunk hbrings
    have hbase : SameBase w u := by
      rw [hu]
      exact ⟨rfl, rfl, rfl, rfl, rfl, fun hw => hw⟩
    have hsame : ∀ c', u.chunkAt? c' = w.chunkAt? c' := by
      intro c'
      rw [hu]
      rfl
    have hintact : u.store.Intact := by
      rw [hu]
      exact h
    rcases makeResident_brought hintact ((hsame c).trans hnone) (hbase.brings.2 hbrings) with
      ⟨hbrought, hid⟩
    refine ⟨⟨chunk, hbase.trans hbrought.toSameBase, hbrings, hbrought.intact, fun c' => ?_⟩, hid⟩
    rw [hbrought.setAt c', hsame]
  -- a saved chunk, or a new one
  cases found with
  | some chunk =>
    refine Ensures.pure (hin _ ?_ chunk (.inl hsaved))
    rw [hw₁]
  | none =>
    refine Ensures.bind (P := fun chunk => Chunk.new c w.dims = .ok chunk) ?_ fun chunk hmade => ?_
    · rw [hdims]
      exact Ensures.intro (fun _ hmade => hmade) (hnew c)
    · refine Ensures.pure (hin _ ?_ chunk (.inr ⟨hsaved, hmade⟩))
      rw [hw₁]

/-- The chunk of a coordinate is resident afterwards. -/
theorem loadOrCreate_grew (h : w.store.Intact) (hfits : c.Fits)
    (hnew : ∀ c e, Chunk.new c w.dims = .error e → faulty) :
    Ensures faulty (w.loadOrCreate c) fun r => Grew w r.2 ∧ r.2.store.idOf? c = some r.1 := by
  cases hid : w.store.idOf? c with
  | some id =>
    unfold loadOrCreate
    rw [hid]
    exact Ensures.pure ⟨Grew.refl h, hid⟩
  | none =>
    have hnone : w.chunkAt? c = none := h.toWellFormed.idOf?_eq_none.1 hid
    apply (loadOrCreate_brought h hnone hnew).mono
    rintro r ⟨⟨chunk, hbrought⟩, hid'⟩
    exact ⟨hbrought.grew hnone hfits, hid'⟩

/-! ## Marking -/

/-- A chunk beside another is found only where its coordinate fits. -/
theorem offset_fits {dx dz : Int} (h : c.offset dx dz = .ok c') : c'.Fits := by
  unfold ChunkCoord.offset at h
  rcases Checked.bind_eq_ok.1 h with ⟨x, hx, h⟩
  rcases Checked.bind_eq_ok.1 h with ⟨z, hz, h⟩
  cases Checked.pure_eq_ok.1 h
  rcases checkCoord_eq_ok.1 hx with ⟨hfx, rfl⟩
  rcases checkCoord_eq_ok.1 hz with ⟨hfz, rfl⟩
  exact ⟨hfx, hfz⟩

/-- Marking the neighbours may bring them in, and makes their meshes dirty. -/
theorem markNeighborsDirty_grew (h : w.store.Intact) (hd : w.dims.Valid)
    (hspace : Spacious faulty w.dims S) (hS : S c) {x z : Nat} (hx : x < w.dims.x)
    (hz : z < w.dims.z) : Ensures faulty (w.markNeighborsDirty c x z) (Grew w) := by
  unfold markNeighborsDirty
  rw [boundaryNeighbors_eq hd hx hz]
  refine Ensures.foldlM_inv (I := Grew w) (fun i u hi hu => ?_) (Grew.refl h)
  have hoffset := offset_ensures hd (hspace.roomy c hS) (neighborOffsets_getD hi)
  apply hoffset.and_eq_ok.bind
  rintro c' ⟨-, hc'⟩
  have hnew : ∀ c e, Chunk.new c u.dims = .error e → faulty := by
    rw [hu.dims]
    exact hspace.storable
  apply (loadOrCreate_grew hu.intact (offset_fits hc') hnew).bind
  rintro ⟨id, u'⟩ ⟨hu', hid⟩
  rcases chunk_of_id hu'.intact hid with ⟨chunk, -, hchunk⟩
  refine Ensures.pure ((hu.trans hu').trans ?_)
  rw [modify_eq_modifyAt hid]
  exact grew_of_store hu'.intact hchunk rfl (SameBase.modifyAt _) (Chunk.SameBlocks.withDirty true)

/-! ## Writing levels -/

/-- A write has a target only in a generated chunk. -/
theorem of_lightTarget? {id : ChunkId} (h : w.lightTarget? cell k v = some id) :
    w.store.idOf? cell.chunk = some id ∧
      ∃ chunk, w.store.get? id = some chunk ∧ chunk.isFresh = false := by
  unfold lightTarget? at h
  split at h
  · cases h
  · rename_i id' hid
    split at h
    · cases h
    · rename_i chunk hget
      split at h
      · rename_i hopen
        cases h
        rw [Bool.and_eq_true, Bool.not_eq_true'] at hopen
        exact ⟨hid, chunk, hget, hopen.1⟩
      · cases h

/-- Writing a level does no more than that. -/
theorem writeLight_grew (h : w.store.Intact) (hd : w.dims.Valid)
    (hspace : Spacious faulty w.dims S) (hp : InChunks w.dims S p) :
    Ensures faulty (w.writeLight p k v) fun r => Grew w r.2 := by
  rcases hp with ⟨cell, hs, hS⟩
  have hcell : w.dims.Contains cell.x cell.y cell.z := by
    rcases (Pos.split_eq_some hd).1 hs with ⟨rfl, hy, -⟩
    exact Pos.cell_contains hd hy
  unfold writeLight
  rw [hs]
  refine Ensures.bind_eq (a := some cell) (Ensures.ok rfl) ?_
  simp only
  cases htarget : w.lightTarget? cell k v with
  | none => exact Ensures.pure (Grew.refl h)
  | some id =>
    -- only generated chunks are written, and what is marked had come in before
    have hid := (of_lightTarget? htarget).1
    rcases chunk_of_id h hid with ⟨chunk, -, hchunk⟩
    have hgrew : Grew w (w.modify id (repaint cell k v)) := by
      rw [modify_eq_modifyAt hid]
      exact grew_of_store h hchunk rfl (SameBase.modifyAt _)
        ((Chunk.SameBlocks.putLight _ _ _ _ _).trans (Chunk.SameBlocks.withDirty true))
    have hx : cell.x < w.dims.x := by omega
    have hz : cell.z < w.dims.z := by omega
    have hmark : Ensures faulty
        ((w.modify id (repaint cell k v)).markNeighborsDirty cell.chunk cell.x cell.z)
        (Grew (w.modify id (repaint cell k v))) :=
      markNeighborsDirty_grew hgrew.intact hd hspace hS hx hz
    apply hmark.bind
    intro w' hw'
    exact Ensures.pure (hgrew.trans hw')

/-- Room for the floods: chunks can be made, and all chunks that can be generated lie in `S`,
where there is room. -/
structure Room (faulty : Prop) (S : ChunkCoord → Prop) (w : World) : Prop where
  valid : w.dims.Valid
  spacious : Spacious faulty w.dims S
  inside : ∀ c chunk, w.Offers c chunk → chunk.isFresh = false → S c

/-- Growing offers no chunks that were not offered, so there is still room. -/
theorem Room.grew (h : Room faulty S w) (hg : Grew w w') : Room faulty S w' where
  valid := by
    rw [hg.dims]
    exact h.valid
  spacious := by
    rw [hg.dims]
    exact h.spacious
  inside c chunk' ho hfresh := by
    rcases hg.offers ho with ⟨chunk, ho', hsame⟩
    exact h.inside c chunk ho' (hsame.isFresh.symm.trans hfresh)

/-- Light is accepted where chunks are generated. -/
theorem Room.accepts (h : Room faulty S w) (hp : w.acceptsLight p = .ok true) :
    InChunks w.dims S p := by
  unfold acceptsLight at hp
  rcases Checked.bind_eq_ok.1 hp with ⟨o, hs, hp⟩
  cases o with
  | none => cases Checked.pure_eq_ok.1 hp
  | some cell =>
    refine ⟨cell, hs, ?_⟩
    have hgen : w.Generated cell.chunk := by
      rw [← openIn_eq_true]
      have hacc := acceptsLight_of_split (w := w) hs
      unfold acceptsLight at hacc
      rw [hs] at hacc
      exact Except.ok.inj (hacc.symm.trans hp)
    rcases hgen with ⟨chunk, hc, hfresh⟩
    exact h.inside _ chunk (.inl hc) hfresh

/-- Floods do no more than writing levels does. -/
theorem safeVolume (h : Room faulty S w₀) :
    SafeVolume World faulty (InChunks w₀.dims S) (Grew w₀) where
  step hp ho := step_ensures h.valid h.spacious hp ho
  light {w p} hg hp k := by
    refine Ensures.intro (fun _ _ => trivial) fun e he => ?_
    refine near_fits h.valid h.spacious hp fun hfits => ?_
    exact lightAt_ne_error hfits.1 hfits.2 (h.grew hg).valid e he
  block {w p} hg hp := by
    refine Ensures.intro (fun _ _ => trivial) fun e he => ?_
    refine near_fits h.valid h.spacious hp fun hfits => ?_
    exact blockAt_ne_error hfits.1 hfits.2 (h.grew hg).valid e he
  accepts {w p} hg hp := by
    refine Ensures.intro (fun b hb htrue => ?_) fun e he => ?_
    · rw [← hg.dims]
      rw [htrue] at hb
      exact (h.grew hg).accepts hb
    · refine near_fits h.valid h.spacious hp fun hfits => ?_
      exact acceptsLight_ne_error hfits.1 hfits.2 (h.grew hg).valid e he
  -- reading never stops where there is room, so only the write has something to show
  setLight {w p} hg hp k v := by
    rw [← hg.dims] at hp
    have hroom := h.grew hg
    show Ensures faulty (do
      let r ← w.writeLight p k v
      return r.2) _
    apply (writeLight_grew hg.intact hroom.valid hroom.spacious hp).bind
    rintro ⟨changed, w'⟩ hw'
    exact Ensures.pure (hg.trans hw')

/-! ## A world with one chunk -/

/-- A chunk was generated in a world that is otherwise empty. -/
theorem exists_generated {d : Dims} (saveDir : Option String)
    (h : ∃ chunk, Chunk.new ⟨0, 0⟩ d = .ok chunk) :
    ∃ (w : World) (chunk : Chunk), w.dims = d ∧ w.files = saveDir.map ChunkFiles.mk ∧
      w.store.Intact ∧ (∀ c, w.chunkAt? c = if c = ⟨0, 0⟩ then some chunk else none) ∧
      chunk.coord = ⟨0, 0⟩ ∧ chunk.dims = d ∧ chunk.life = { fresh := false } := by
  rcases h with ⟨chunk, hnew⟩
  rcases Chunk.new_spec hnew with ⟨hcoord, hdims, hblank⟩
  let w := World.new { chunk := d, saveDir } .empty
  have hid := ChunkStore.wellFormed_empty.idOf?_eq_none.2
    (ChunkStore.getAt?_empty (c := chunk.markGenerated.coord))
  have hplaced := (ChunkStore.insert_spec ChunkStore.wellFormed_empty w.gpu hid).2
  refine ⟨(w.makeResident chunk.markGenerated).2, chunk.markGenerated, rfl, rfl,
    hplaced.intact ChunkStore.intact_empty hid, fun c => ?_, hcoord, hdims, ?_⟩
  · refine (hplaced.getAt? ChunkStore.wellFormed_empty).trans ?_
    rw [show chunk.markGenerated.coord = ⟨0, 0⟩ from hcoord, ChunkStore.getAt?_empty]
  · show { chunk.life with fresh := false } = _
    rw [hblank.life]
    rfl

end World

end VoxelWorld
