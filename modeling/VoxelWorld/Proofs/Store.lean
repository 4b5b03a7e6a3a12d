import VoxelWorld.Store

/-!
# Proofs.Store — the store as a map from coordinates to chunks

* `WellFormed` is what every operation keeps: a coordinate leads to a slot that holds its
  chunk, and free slots are empty and listed once.
* `getAt?_modify` and `getAt?_modifyAt` change one chunk and no other.
* `Placed` says what adding a chunk does and `Emptied` what taking one out does. `insert` does the
  first where no chunk stands (`insert_spec`) and both where one does (`insert_cases`).
* In an `Intact` store the listed chunks are those that are found (`Intact.mem_chunks`), and
  taking one out leaves the others (`Emptied.getAt?`). A `Tight` one has lost no slot.
-/

namespace VoxelWorld.ChunkStore

variable {s : ChunkStore} {c c' : ChunkCoord} {id : ChunkId} {chunk : Chunk}

structure WellFormed (s : ChunkStore) : Prop where
  found : ∀ c id, s.idOf? c = some id →
    ∃ chunk, s.slots[id.index]? = some ⟨id.generation, some chunk⟩ ∧ chunk.coord = c
  free : ∀ i ∈ s.free, ∃ g, s.slots[i]? = some ⟨g, none⟩
  free_nodup : s.free.Nodup

/-- A store without chunks. -/
theorem wellFormed_empty : WellFormed .empty where
  found c id h := by
    unfold idOf? empty at h
    rw [Std.HashMap.getElem?_empty] at h
    cases h
  free i h := by cases h
  free_nodup := List.nodup_nil

theorem getAt?_empty : empty.getAt? c = none := by
  unfold getAt? idOf? empty
  rw [Std.HashMap.getElem?_empty]

/-! ## Finding -/

/-- An id finds the chunk in its slot, if that slot still has its generation. -/
theorem get?_eq_some :
    s.get? id = some chunk ↔ s.slots[id.index]? = some ⟨id.generation, some chunk⟩ := by
  unfold get?
  cases h : s.slots[id.index]? with
  | none => simp
  | some slot =>
    obtain ⟨g, held⟩ := slot
    by_cases hg : g = id.generation
    · subst hg
      simp
    · simp [hg]

/-- A coordinate finds the chunk that its id finds. -/
theorem getAt?_eq_some :
    s.getAt? c = some chunk ↔ ∃ id, s.idOf? c = some id ∧ s.get? id = some chunk := by
  unfold getAt?
  cases s.idOf? c with
  | none => simp
  | some id => simp

/-- A coordinate that has an id has a chunk, and it lies there. -/
theorem WellFormed.get? (h : s.WellFormed) (hid : s.idOf? c = some id) :
    ∃ chunk, s.get? id = some chunk ∧ chunk.coord = c := by
  obtain ⟨chunk, hslot, hcoord⟩ := h.found c id hid
  exact ⟨chunk, get?_eq_some.2 hslot, hcoord⟩

/-- A chunk is found under its own coordinate only. -/
theorem WellFormed.coord (h : s.WellFormed) (hc : s.getAt? c = some chunk) : chunk.coord = c := by
  obtain ⟨id, hid, hget⟩ := getAt?_eq_some.1 hc
  obtain ⟨chunk', hget', hcoord⟩ := h.get? hid
  rw [hget] at hget'
  cases hget'
  exact hcoord

theorem getAt?_of_idOf? (hid : s.idOf? c = some id) : s.getAt? c = s.get? id := by
  unfold getAt?
  rw [hid]

/-- Coordinates without a chunk have no id. -/
theorem WellFormed.idOf?_eq_none (h : s.WellFormed) : s.idOf? c = none ↔ s.getAt? c = none := by
  cases hid : s.idOf? c with
  | none => simp [ChunkStore.getAt?, hid]
  | some id =>
    obtain ⟨chunk, hget, _⟩ := h.get? hid
    simp [getAt?_of_idOf? hid, hget]

/-- Two coordinates cannot share a slot. -/
theorem WellFormed.index_ne (h : s.WellFormed) {id' : ChunkId} (hid : s.idOf? c = some id)
    (hid' : s.idOf? c' = some id') (hc : c' ≠ c) : id'.index ≠ id.index := by
  intro heq
  obtain ⟨chunk, hslot, hcoord⟩ := h.found c id hid
  obtain ⟨chunk', hslot', hcoord'⟩ := h.found c' id' hid'
  rw [heq, hslot] at hslot'
  simp only [Option.some.injEq, Slot.mk.injEq] at hslot'
  exact hc (hcoord'.symm.trans ((congrArg Chunk.coord hslot'.2.symm).trans hcoord))

/-! ## Changing -/

theorem idOf?_modify (f : Chunk → Chunk) : (s.modify id f).idOf? c = s.idOf? c := rfl

/-- The slots after a change. -/
theorem getElem?_modify (f : Chunk → Chunk) (i : Nat) :
    (s.modify id f).slots[i]? =
      if id.index = i then s.slots[i]?.map (Slot.modify id.generation f) else s.slots[i]? := by
  simp only [modify, Array.getElem?_modify]

theorem Slot.modify_self (f : Chunk → Chunk) (g : Nat) :
    Slot.modify g f ⟨g, some chunk⟩ = ⟨g, some (f chunk)⟩ := by
  simp [Slot.modify]

/-- An id that finds no chunk changes nothing. -/
theorem modify_eq_self (h : s.get? id = none) (f : Chunk → Chunk) : s.modify id f = s := by
  obtain ⟨slots, free, byCoord, seats⟩ := s
  have hslots : slots.modify id.index (Slot.modify id.generation f) = slots := by
    apply Array.ext_getElem?
    intro i
    rw [Array.getElem?_modify]
    split
    · rename_i hi
      subst hi
      -- the slot may be empty, or have gone on to another generation
      cases hslot : slots[id.index]? with
      | none => rfl
      | some slot =>
        obtain ⟨g, held⟩ := slot
        cases held with
        | none => rfl
        | some chunk =>
          have hg : g ≠ id.generation := by
            rintro rfl
            cases (get?_eq_some.2 hslot).symm.trans h
          rw [Option.map_some, Slot.modify, if_neg hg]
    · rfl
  show ChunkStore.mk (slots.modify id.index (Slot.modify id.generation f)) _ _ _ = _
  rw [hslots]

/-- Chunks can be changed as long as they stay where they are. -/
theorem WellFormed.modify (h : s.WellFormed) {f : Chunk → Chunk}
    (hf : ∀ chunk, s.get? id = some chunk → (f chunk).coord = chunk.coord) :
    (s.modify id f).WellFormed where
  found c id' hid := by
    obtain ⟨chunk, hslot, hcoord⟩ := h.found c id' hid
    rw [getElem?_modify]
    split
    · rename_i hindex
      rw [hslot, Option.map_some]
      -- an id of an older generation changes nothing
      by_cases hg : id'.generation = id.generation
      · have hget : s.get? id = some chunk := by
          rw [get?_eq_some, hindex, ← hg]
          exact hslot
        rw [← hg, Slot.modify_self]
        exact ⟨f chunk, rfl, (hf chunk hget).trans hcoord⟩
      · refine ⟨chunk, ?_, hcoord⟩
        simp [Slot.modify, hg]
    · exact ⟨chunk, hslot, hcoord⟩
  free i hi := by
    obtain ⟨g, hslot⟩ := h.free i hi
    refine ⟨g, ?_⟩
    rw [getElem?_modify, hslot]
    split <;> rfl
  free_nodup := h.free_nodup

/-- Changing the chunk of a coordinate changes no other chunk. -/
theorem getAt?_modify (h : s.WellFormed) (hid : s.idOf? c = some id) {f : Chunk → Chunk} :
    (s.modify id f).getAt? c' = if c' = c then (s.getAt? c).map f else s.getAt? c' := by
  obtain ⟨chunk, hslot, hcoord⟩ := h.found c id hid
  have hget := get?_eq_some.2 hslot
  by_cases hc : c' = c
  · subst hc
    rw [if_pos rfl, getAt?_of_idOf? hid, hget, Option.map_some, getAt?_eq_some]
    refine ⟨id, hid, get?_eq_some.2 ?_⟩
    rw [getElem?_modify, if_pos rfl, hslot, Option.map_some, Slot.modify_self]
  · rw [if_neg hc]
    unfold ChunkStore.getAt?
    rw [idOf?_modify]
    -- ids of other coordinates lead to other slots
    cases hid' : s.idOf? c' with
    | none => rfl
    | some id' =>
      show (s.modify id f).get? id' = s.get? id'
      unfold ChunkStore.get?
      rw [getElem?_modify, if_neg (h.index_ne hid hid' hc).symm]

/-- Only the chunk of this coordinate is another one. -/
theorem getAt?_modifyAt (h : s.WellFormed) {f : Chunk → Chunk} :
    (s.modifyAt c f).getAt? c' = if c' = c then (s.getAt? c).map f else s.getAt? c' := by
  cases hid : s.idOf? c with
  | none =>
    simp only [modifyAt, hid]
    by_cases hc : c' = c
    · rw [if_pos hc, hc, h.idOf?_eq_none.1 hid]
      rfl
    · rw [if_neg hc]
  | some id =>
    simp only [modifyAt, hid]
    exact getAt?_modify h hid

/-- The changed chunk is found again, whatever else the store holds. -/
theorem getAt?_modifyAt_self (hc : s.getAt? c = some chunk) (f : Chunk → Chunk) :
    (s.modifyAt c f).getAt? c = some (f chunk) := by
  obtain ⟨id, hid, hget⟩ := getAt?_eq_some.1 hc
  simp only [modifyAt, hid]
  refine getAt?_eq_some.2 ⟨id, hid, get?_eq_some.2 ?_⟩
  rw [getElem?_modify, if_pos rfl, get?_eq_some.1 hget, Option.map_some, Slot.modify_self]

/-- Changing the chunk at a coordinate keeps a store well formed. -/
theorem WellFormed.modifyAt (h : s.WellFormed) {f : Chunk → Chunk}
    (hf : ∀ chunk, s.getAt? c = some chunk → (f chunk).coord = chunk.coord) :
    (s.modifyAt c f).WellFormed := by
  cases hid : s.idOf? c with
  | none =>
    simp only [ChunkStore.modifyAt, hid]
    exact h
  | some id =>
    simp only [ChunkStore.modifyAt, hid]
    refine h.modify fun chunk hget => hf chunk ?_
    rw [getAt?_of_idOf? hid, hget]

/-! ## Adding -/

/-- What placing a chunk under an id does to the slots, whether the slot is new or not. -/
structure Placed (s : ChunkStore) (chunk : Chunk) (id : ChunkId) (s' : ChunkStore) : Prop where
  slot : s'.slots[id.index]? = some ⟨id.generation, some chunk⟩
  other : ∀ i, i ≠ id.index → s'.slots[i]? = s.slots[i]?
  unused : ∀ c id', s.idOf? c = some id' → id'.index ≠ id.index
  /-- The slot was empty, or it is the next one. -/
  vacant : s.slots[id.index]? = some ⟨id.generation, none⟩ ∨ id = ⟨s.slots.size, 0⟩
  found : ∀ c, s'.idOf? c = if c = chunk.coord then some id else s.idOf? c
  free : ∀ i, i ∈ s'.free ↔ i ∈ s.free ∧ i ≠ id.index
  free_nodup : s'.free.Nodup

/-- Placing takes a free slot, or else a new one at the end. -/
theorem placed_place (h : s.WellFormed) (chunk : Chunk) :
    Placed s chunk (s.place chunk).1 (s.place chunk).2 := by
  have hins : ∀ (m : Std.HashMap ChunkCoord ChunkId) (id : ChunkId) (c : ChunkCoord),
      (m.insert chunk.coord id)[c]? = if c = chunk.coord then some id else m[c]? := by
    intro m id c
    rw [Std.HashMap.getElem?_insert]
    by_cases hc : c = chunk.coord
    · simp [hc]
    · rw [if_neg (by simpa using Ne.symm hc), if_neg hc]
  unfold place
  cases hfree : s.free with
  | nil =>
    -- a new slot at the end
    refine ⟨by simp, fun i hi => ?_, fun c id hid => ?_, .inr rfl, fun c => hins _ _ c,
      by simp [hfree], by simp⟩
    · simp only [Array.getElem?_push]
      rw [if_neg hi]
    · obtain ⟨chunk', hslot, _⟩ := h.found c id hid
      obtain ⟨hlt, _⟩ := Array.getElem?_eq_some_iff.1 hslot
      exact Nat.ne_of_lt hlt
  | cons index rest =>
    -- the last slot that was emptied
    obtain ⟨g, hslot⟩ := h.free index (by rw [hfree]; exact List.mem_cons_self)
    obtain ⟨hlt, _⟩ := Array.getElem?_eq_some_iff.1 hslot
    have hg : (s.slots.getD index ⟨0, none⟩).generation = g := by
      rw [Array.getD_eq_getD_getElem?, hslot]
      rfl
    have hnodup := h.free_nodup
    rw [hfree, List.nodup_cons] at hnodup
    refine ⟨?_, fun i hi => ?_, fun c id hid => ?_, .inl ?_, fun c => hins _ _ c, fun i => ?_,
      hnodup.2⟩
    · simp [Array.set!_eq_setIfInBounds, hlt]
    · simp only [Array.set!_eq_setIfInBounds, Array.getElem?_setIfInBounds_ne (Ne.symm hi)]
    · -- a free slot is empty, so no coordinate leads to it
      rintro heq
      obtain ⟨chunk', hslot', _⟩ := h.found c id hid
      rw [heq, hslot] at hslot'
      cases hslot'
    · dsimp only
      rw [hg, hslot]
    · rw [hfree, List.mem_cons]
      refine ⟨fun hi => ⟨.inr hi, ?_⟩, fun hi => hi.1.resolve_left hi.2⟩
      rintro rfl
      exact hnodup.1 hi

namespace Placed

variable {s' : ChunkStore}

/-- Nothing that was there before is lost when a chunk is placed. -/
theorem wellFormed (hp : Placed s chunk id s') (h : s.WellFormed) : s'.WellFormed where
  found c id' hid := by
    rw [hp.found] at hid
    split at hid
    · rename_i hc
      cases hid
      exact ⟨chunk, hp.slot, hc.symm⟩
    · obtain ⟨chunk', hslot, hcoord⟩ := h.found c id' hid
      exact ⟨chunk', (hp.other _ (hp.unused c id' hid)).trans hslot, hcoord⟩
  free i hi := by
    obtain ⟨hmem, hne⟩ := (hp.free i).1 hi
    obtain ⟨g, hslot⟩ := h.free i hmem
    exact ⟨g, (hp.other i hne).trans hslot⟩
  free_nodup := hp.free_nodup

theorem idOf? (hp : Placed s chunk id s') : s'.idOf? chunk.coord = some id := by
  rw [hp.found, if_pos rfl]

/-- The placed chunk is found, and so is every other as before. -/
theorem getAt? (hp : Placed s chunk id s') (h : s.WellFormed) :
    s'.getAt? c = if c = chunk.coord then some chunk else s.getAt? c := by
  by_cases hc : c = chunk.coord
  · rw [if_pos hc, hc, getAt?_of_idOf? hp.idOf?]
    exact get?_eq_some.2 hp.slot
  · rw [if_neg hc]
    cases hid : s.idOf? c with
    | none =>
      have hnone : s'.idOf? c = none := by rw [hp.found, if_neg hc, hid]
      unfold ChunkStore.getAt?
      rw [hnone, hid]
    | some id' =>
      obtain ⟨chunk', hslot, _⟩ := h.found c id' hid
      have hid' : s'.idOf? c = some id' := by rw [hp.found, if_neg hc, hid]
      rw [getAt?_of_idOf? hid', getAt?_of_idOf? hid, get?_eq_some.2 hslot, get?_eq_some,
        hp.other _ (hp.unused c id' hid), hslot]

end Placed

/-- Where no chunk stands, inserting one is placing it. -/
theorem insert_spec (h : s.WellFormed) (gpu : Gpu) (hc : s.idOf? chunk.coord = none) :
    (s.insert chunk gpu).gpu = gpu ∧
      Placed s chunk (s.insert chunk gpu).id (s.insert chunk gpu).store := by
  have heq : s.insert chunk gpu = ⟨(s.place chunk).1, (s.place chunk).2, gpu, none⟩ := by
    unfold insert removeAt?
    rw [hc]
  rw [heq]
  exact ⟨rfl, placed_place h chunk⟩

/-! ## Listing -/

/-- Besides, each chunk that lies in a slot is the one found at its coordinate. -/
structure Intact (s : ChunkStore) : Prop extends WellFormed s where
  listed : ∀ i g chunk, s.slots[i]? = some ⟨g, some chunk⟩ → s.idOf? chunk.coord = some ⟨i, g⟩

/-- A store without chunks. -/
theorem intact_empty : Intact .empty where
  toWellFormed := wellFormed_empty
  listed i g chunk h := by
    unfold empty at h
    simp at h

/-- Changing a chunk leaves it listed. -/
theorem Intact.modify (h : s.Intact) {f : Chunk → Chunk}
    (hf : ∀ chunk, s.get? id = some chunk → (f chunk).coord = chunk.coord) :
    (s.modify id f).Intact where
  toWellFormed := h.toWellFormed.modify hf
  listed i g chunk hslot := by
    rw [idOf?_modify]
    rw [getElem?_modify] at hslot
    -- only the slot of the id is another one, and only with the right generation
    split at hslot
    · rename_i hi
      rcases Option.map_eq_some_iff.1 hslot with ⟨⟨g₀, held⟩, hold, heq⟩
      cases held with
      | none => cases heq
      | some chunk₀ =>
        by_cases hg : g₀ = id.generation
        · have hget : s.get? id = some chunk₀ := by
            rw [get?_eq_some, hi, ← hg]
            exact hold
          rw [hg, Slot.modify_self] at heq
          cases heq
          rw [hf chunk₀ hget, ← hg]
          exact h.listed i g₀ chunk₀ hold
        · simp only [Slot.modify, hg, if_false] at heq
          cases heq
          exact h.listed i g chunk hold
    · exact h.listed i g chunk hslot

/-- Changing the chunk at a coordinate keeps a store intact. -/
theorem Intact.modifyAt (h : s.Intact) {f : Chunk → Chunk}
    (hf : ∀ chunk, s.getAt? c = some chunk → (f chunk).coord = chunk.coord) :
    (s.modifyAt c f).Intact := by
  cases hid : s.idOf? c with
  | none =>
    simp only [ChunkStore.modifyAt, hid]
    exact h
  | some id =>
    simp only [ChunkStore.modifyAt, hid]
    refine h.modify fun chunk hget => hf chunk ?_
    rw [getAt?_of_idOf? hid, hget]

/-- A new coordinate is listed for the new chunk, and no slot loses its own. -/
theorem Placed.intact {s' : ChunkStore} (hp : Placed s chunk id s') (h : s.Intact)
    (hnone : s.idOf? chunk.coord = none) : s'.Intact where
  toWellFormed := hp.wellFormed h.toWellFormed
  listed i g chunk' hslot := by
    rw [hp.found]
    by_cases hi : i = id.index
    · rw [hi, hp.slot] at hslot
      cases hslot
      rw [if_pos rfl, hi]
    · rw [hp.other i hi] at hslot
      have hold := h.listed i g chunk' hslot
      rw [if_neg, hold]
      intro heq
      rw [heq, hnone] at hold
      cases hold

/-- The entries are the slots that hold a chunk. -/
theorem mem_entries :
    (id, chunk) ∈ s.entries ↔ s.slots[id.index]? = some ⟨id.generation, some chunk⟩ := by
  unfold entries
  simp only [List.mem_filterMap, List.mem_zipIdx_iff_getElem?, Prod.exists, Array.getElem?_toList]
  constructor
  · rintro ⟨⟨g, held⟩, i, hslot, hentry⟩
    cases held with
    | none => cases hentry
    | some chunk₀ =>
      cases hentry
      exact hslot
  · intro hslot
    exact ⟨_, _, hslot, rfl⟩

/-- The listed chunks are those that are found. -/
theorem Intact.mem_chunks (h : s.Intact) :
    chunk ∈ s.chunks ↔ s.getAt? chunk.coord = some chunk := by
  have hslots : chunk ∈ s.chunks ↔
      ∃ id : ChunkId, s.slots[id.index]? = some ⟨id.generation, some chunk⟩ := by
    unfold chunks
    simp only [List.mem_map, Prod.exists, mem_entries]
    constructor
    · rintro ⟨id, _, hslot, rfl⟩
      exact ⟨id, hslot⟩
    · rintro ⟨id, hslot⟩
      exact ⟨id, chunk, hslot, rfl⟩
  rw [hslots, getAt?_eq_some]
  constructor
  · rintro ⟨id, hslot⟩
    exact ⟨id, h.listed _ _ chunk hslot, get?_eq_some.2 hslot⟩
  · rintro ⟨id, -, hget⟩
    exact ⟨id, get?_eq_some.1 hget⟩

/-! ## Removing -/

/-- What taking a chunk out of its slot does. -/
structure Emptied (s : ChunkStore) (chunk : Chunk) (id : ChunkId) (s' : ChunkStore) : Prop where
  held : s.slots[id.index]? = some ⟨id.generation, some chunk⟩
  slot : s'.slots[id.index]? = some ⟨nextGeneration id.generation, none⟩
  other : ∀ i, i ≠ id.index → s'.slots[i]? = s.slots[i]?
  found : ∀ c, s'.idOf? c = if c = chunk.coord then none else s.idOf? c
  free : s'.free = id.index :: s.free

/-- Ids that find nothing remove nothing. -/
theorem remove?_eq_none : s.remove? id = none ↔ s.get? id = none := by
  unfold remove?
  cases s.get? id <;> simp

theorem removeAt?_of_idOf? (hid : s.idOf? c = some id) : s.removeAt? c = s.remove? id := by
  unfold removeAt?
  rw [hid]

/-- A chunk that an id finds can be taken out. -/
theorem exists_emptied (h : s.get? id = some chunk) :
    ∃ s', s.remove? id = some (chunk, s') ∧ Emptied s chunk id s' := by
  have hslot := get?_eq_some.1 h
  obtain ⟨hlt, -⟩ := Array.getElem?_eq_some_iff.1 hslot
  unfold remove?
  rw [h]
  refine ⟨_, rfl, hslot, ?_, fun i hi => ?_, fun c => ?_, rfl⟩
  · simp [Array.set!_eq_setIfInBounds, hlt]
  · simp only [Array.set!_eq_setIfInBounds, Array.getElem?_setIfInBounds_ne (Ne.symm hi)]
  · simp only [ChunkStore.idOf?, Std.HashMap.getElem?_erase]
    by_cases hc : c = chunk.coord
    · simp [hc]
    · rw [if_neg hc, if_neg (by simpa using Ne.symm hc)]

namespace Emptied

variable {s' : ChunkStore}

/-- The slot is empty, so the coordinate is listed no more. -/
theorem intact (he : Emptied s chunk id s') (h : s.Intact) : s'.Intact where
  found c id' hid := by
    rw [he.found] at hid
    split at hid
    · cases hid
    · rename_i hc
      have hne := h.index_ne (h.listed _ _ _ he.held) hid hc
      rw [he.other _ hne]
      exact h.found c id' hid
  free i hi := by
    rw [he.free] at hi
    by_cases heq : i = id.index
    · rw [heq]
      exact ⟨_, he.slot⟩
    · rw [he.other i heq]
      exact h.free i ((List.mem_cons.1 hi).resolve_left heq)
  free_nodup := by
    rw [he.free]
    refine List.nodup_cons.2 ⟨fun hmem => ?_, h.free_nodup⟩
    obtain ⟨g, hfree⟩ := h.free _ hmem
    cases he.held.symm.trans hfree
  listed i g chunk' hslot := by
    by_cases heq : i = id.index
    · rw [heq, he.slot] at hslot
      cases hslot
    · rw [he.other i heq] at hslot
      have hlisted := h.listed i g chunk' hslot
      rw [he.found, if_neg, hlisted]
      -- the other chunk lies elsewhere, so its coordinate is another one
      intro hc
      rw [hc, h.listed _ _ _ he.held] at hlisted
      cases hlisted
      exact heq rfl

/-- The id of the chunk that was taken out finds nothing any more. -/
theorem get?_self (he : Emptied s chunk id s') : s'.get? id = none := by
  unfold ChunkStore.get?
  rw [he.slot]
  exact ite_self none

/-- An id that found nothing does not find anything now. -/
theorem get?_eq_none {id' : ChunkId} (he : Emptied s chunk id s') (h : s.get? id' = none) :
    s'.get? id' = none := by
  by_cases hi : id'.index = id.index
  · unfold ChunkStore.get?
    rw [hi, he.slot]
    exact ite_self none
  · unfold ChunkStore.get? at h ⊢
    rwa [he.other _ hi]

/-- Only the coordinate of the chunk is empty now. -/
theorem getAt? (he : Emptied s chunk id s') (h : s.Intact) :
    s'.getAt? c = if c = chunk.coord then none else s.getAt? c := by
  unfold ChunkStore.getAt?
  rw [he.found]
  by_cases hc : c = chunk.coord
  · rw [if_pos hc, if_pos hc]
  · rw [if_neg hc, if_neg hc]
    cases hid : s.idOf? c with
    | none => rfl
    | some id' =>
      show s'.get? id' = s.get? id'
      unfold ChunkStore.get?
      rw [he.other _ (h.index_ne (h.listed _ _ _ he.held) hid hc)]

end Emptied

/-- Inserting places the chunk; where one stands, that one is taken out before, and disposed. -/
theorem insert_cases (h : s.Intact) (chunk : Chunk) (gpu : Gpu) :
    (s.idOf? chunk.coord = none ∧ (s.insert chunk gpu).replaced = none ∧
      (s.insert chunk gpu).gpu = gpu ∧
      Placed s chunk (s.insert chunk gpu).id (s.insert chunk gpu).store) ∨
    ∃ id old s₁, s.idOf? chunk.coord = some id ∧ old.coord = chunk.coord ∧ Emptied s old id s₁ ∧
      (s.insert chunk gpu).replaced = some { old with life := (old.life.dispose gpu).1 } ∧
      (s.insert chunk gpu).gpu = (old.life.dispose gpu).2 ∧
      Placed s₁ chunk (s.insert chunk gpu).id (s.insert chunk gpu).store := by
  cases hid : s.idOf? chunk.coord with
  | none =>
    have heq : s.insert chunk gpu = ⟨(s.place chunk).1, (s.place chunk).2, gpu, none⟩ := by
      unfold insert removeAt?
      rw [hid]
    rw [heq]
    exact .inl ⟨rfl, rfl, rfl, placed_place h.toWellFormed chunk⟩
  | some id =>
    -- the chunk that was there leaves first
    obtain ⟨old, hget, hcoord⟩ := h.get? hid
    obtain ⟨s₁, hremove, he⟩ := exists_emptied hget
    have heq : s.insert chunk gpu = ⟨(s₁.place chunk).1, (s₁.place chunk).2,
        (old.life.dispose gpu).2, some { old with life := (old.life.dispose gpu).1 }⟩ := by
      unfold insert
      rw [removeAt?_of_idOf? hid, hremove]
    rw [heq]
    exact .inr ⟨id, old, s₁, rfl, hcoord, he, rfl, rfl,
      placed_place (he.intact h).toWellFormed chunk⟩

/-! ## Slots -/

/-- Besides, every empty slot is free. -/
structure Tight (s : ChunkStore) : Prop extends Intact s where
  vacant : ∀ i g, s.slots[i]? = some ⟨g, none⟩ → i ∈ s.free

/-- A store without chunks has no slots at all. -/
theorem tight_empty : Tight .empty where
  toIntact := intact_empty
  vacant i g h := by
    unfold empty at h
    simp at h

/-- Changing a chunk empties no slot. -/
theorem Tight.modify (h : s.Tight) {f : Chunk → Chunk}
    (hf : ∀ chunk, s.get? id = some chunk → (f chunk).coord = chunk.coord) :
    (s.modify id f).Tight where
  toIntact := h.toIntact.modify hf
  vacant i g hslot := by
    rw [getElem?_modify] at hslot
    split at hslot
    · obtain ⟨⟨g₀, held⟩, hold, heq⟩ := Option.map_eq_some_iff.1 hslot
      cases held with
      | none => exact h.vacant i g₀ hold
      | some chunk =>
        simp only [Slot.modify] at heq
        split at heq <;> cases heq
    · exact h.vacant i g hslot

/-- The slot that is used is no longer free. -/
theorem Placed.tight {s' : ChunkStore} (hp : Placed s chunk id s') (h : s.Tight)
    (hnone : s.idOf? chunk.coord = none) : s'.Tight where
  toIntact := hp.intact h.toIntact hnone
  vacant i g hslot := by
    have hi : i ≠ id.index := by
      rintro rfl
      cases hp.slot.symm.trans hslot
    rw [hp.other i hi] at hslot
    exact (hp.free i).2 ⟨h.vacant i g hslot, hi⟩

/-- The slot that was left becomes free. -/
theorem Emptied.tight {s' : ChunkStore} (he : Emptied s chunk id s') (h : s.Tight) :
    s'.Tight where
  toIntact := he.intact h.toIntact
  vacant i g hslot := by
    rw [he.free]
    by_cases hi : i = id.index
    · exact List.mem_cons.2 (.inl hi)
    · rw [he.other i hi] at hslot
      exact List.mem_cons_of_mem _ (h.vacant i g hslot)

end VoxelWorld.ChunkStore
