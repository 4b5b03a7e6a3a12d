import Mathlib.Data.List.Nodup
import Mathlib.Data.Set.Card
import VoxelWorld.Proofs.Mesh.Slots
import VoxelWorld.Proofs.Store

/-!
# Proofs.Store.Directory — what a store answers after any operations

* `Op` is what can be asked of a store. A `Session` is a store in use, with a record beside it of
  what it was asked to hold: a `Directory`, which is a map from coordinates to chunks and their
  ids, and knows nothing of slots.
* `Holds` says that a store has the entries of a directory and has lost no slot. A slot is filled or
  emptied, or its chunk is changed; `Session.Moves` are these three and their sequences. Each keeps
  `Holds`, and every operation is of them (`Holds.perform_moves`).
* `Shows` is what a store answers that holds a directory (`Holds.shows`).
* `store_refines_directory` collects them.
-/

namespace VoxelWorld

/-- A change to a chunk that leaves it at its coordinate. -/
structure Chunk.Change where
  apply : Chunk → Chunk
  coord_apply : ∀ c, (apply c).coord = c.coord

namespace ChunkStore

/-! ## Operations -/

/-- What can be asked of a store. -/
inductive Op
  | insert (chunk : Chunk)
  | remove (id : ChunkId)
  | removeAt (c : ChunkCoord)
  | change (id : ChunkId) (f : Chunk.Change)
  | changeAt (c : ChunkCoord) (f : Chunk.Change)

/-- The chunks by their coordinates, each with the id it was given. -/
abbrev Directory := ChunkCoord → Option (ChunkId × Chunk)

namespace Directory

/-- The entry with an id, changed. -/
def change (m : Directory) (id : ChunkId) (f : Chunk → Chunk) : Directory := fun c =>
  (m c).map fun e => if e.1 = id then (e.1, f e.2) else e

/-- All entries but the one with an id. -/
def remove (m : Directory) (id : ChunkId) : Directory := fun c => (m c).filter fun e => e.1 ≠ id

end Directory

/-- A store in use, and what was asked of it. -/
structure Session where
  store : ChunkStore
  gpu : Gpu
  held : Directory
  /-- The ids that were given out, the last one first. -/
  issued : List ChunkId
  /-- The slots that a chunk has left, once for each chunk. -/
  emptied : List Nat

namespace Session

def start (gpu : Gpu) : Session := ⟨.empty, gpu, fun _ => none, [], []⟩

/-- One operation. The directory is changed as the operation says, whatever the store does. -/
def perform (t : Session) : Op → Session
  | .insert chunk =>
    let r := t.store.insert chunk t.gpu
    { store := r.store
      gpu := r.gpu
      held := Function.update t.held chunk.coord (some (r.id, chunk))
      issued := r.id :: t.issued
      emptied := ((t.store.idOf? chunk.coord).map (·.index)).toList ++ t.emptied }
  | .remove id =>
    { t with
      store := (t.store.remove? id).elim t.store Prod.snd
      held := t.held.remove id
      emptied := ((t.store.get? id).map fun _ => id.index).toList ++ t.emptied }
  | .removeAt c =>
    { t with
      store := (t.store.removeAt? c).elim t.store Prod.snd
      held := Function.update t.held c none
      emptied := ((t.store.idOf? c).map (·.index)).toList ++ t.emptied }
  | .change id f =>
    { t with store := t.store.modify id f.apply, held := t.held.change id f.apply }
  | .changeAt c f =>
    { t with
      store := t.store.modifyAt c f.apply
      held := Function.update t.held c ((t.held c).map fun e => (e.1, f.apply e.2)) }

def performAll (t : Session) (ops : List Op) : Session := ops.foldl perform t

end Session

/-! ## Entries -/

variable {s s' : ChunkStore} {m : Directory} {c : ChunkCoord} {id : ChunkId} {chunk : Chunk}

/-- The store has exactly the entries of the directory, and every other slot is free. -/
structure Holds (s : ChunkStore) (m : Directory) : Prop where
  tight : s.Tight
  idOf? : ∀ c, s.idOf? c = (m c).map Prod.fst
  getAt? : ∀ c, s.getAt? c = (m c).map Prod.snd

/-- The first store has no entries. -/
theorem holds_empty : Holds .empty fun _ => none where
  tight := tight_empty
  idOf? _ := Std.HashMap.getElem?_empty
  getAt? _ := getAt?_empty

namespace Holds

/-- An entry is a slot with the chunk in it. -/
theorem entry (h : Holds s m) : m c = some (id, chunk) ↔
    s.get? id = some chunk ∧ chunk.coord = c := by
  constructor
  · intro hentry
    have hid : s.idOf? c = some id := by rw [h.idOf?, hentry, Option.map_some]
    have hat : s.getAt? c = some chunk := by rw [h.getAt?, hentry, Option.map_some]
    rw [← getAt?_of_idOf? hid]
    exact ⟨hat, h.tight.coord hat⟩
  · rintro ⟨hget, rfl⟩
    have hid := h.tight.listed _ _ _ (get?_eq_some.1 hget)
    have hat := getAt?_of_idOf? hid
    rw [hget, h.getAt?, Option.map_eq_some_iff] at hat
    rw [h.idOf?, Option.map_eq_some_iff] at hid
    rcases hid with ⟨⟨id', chunk'⟩, hentry, rfl⟩
    rcases hat with ⟨e, hentry', rfl⟩
    rw [hentry] at hentry'
    cases hentry'
    exact hentry

/-- Only the entry at the coordinate of the chunk has its id. -/
theorem id_iff (h : Holds s m) (hget : s.get? id = some chunk) {e : ChunkId × Chunk}
    (he : m c = some e) : e.1 = id ↔ c = chunk.coord := by
  rcases h.entry.1 he with ⟨hget', hcoord⟩
  constructor
  · rintro rfl
    rw [hget] at hget'
    cases hget'
    exact hcoord.symm
  · rintro rfl
    have hentry := h.entry.2 ⟨hget, rfl⟩
    rw [he] at hentry
    cases hentry
    rfl

/-- An id that finds no chunk is not the id of an entry. -/
theorem id_ne (h : Holds s m) (hget : s.get? id = none) {e : ChunkId × Chunk} (he : m c = some e) :
    e.1 ≠ id := by
  rintro rfl
  rw [(h.entry.1 he).1] at hget
  cases hget

/-! ## What happens to a slot -/

/-- A chunk that leaves its slot takes its entry along. -/
theorem empty (h : Holds s m) (he : Emptied s chunk id s') :
    Holds s' (Function.update m chunk.coord none) where
  tight := he.tight h.tight
  idOf? c := by
    rw [he.found, Function.update_apply]
    split
    · rfl
    · exact h.idOf? c
  getAt? c := by
    rw [he.getAt? h.tight.toIntact, Function.update_apply]
    split
    · rfl
    · exact h.getAt? c

/-- A chunk that is given a slot brings one entry. -/
theorem place (h : Holds s m) (hp : Placed s chunk id s') (hnone : s.idOf? chunk.coord = none) :
    Holds s' (Function.update m chunk.coord (some (id, chunk))) where
  tight := hp.tight h.tight hnone
  idOf? c := by
    rw [hp.found, Function.update_apply]
    split
    · rfl
    · exact h.idOf? c
  getAt? c := by
    rw [hp.getAt? h.tight.toWellFormed, Function.update_apply]
    split
    · rfl
    · exact h.getAt? c

/-- Changing the chunk of a coordinate changes its entry. -/
theorem modify (h : Holds s m) (hid : s.idOf? c = some id) (f : Chunk.Change) :
    Holds (s.modify id f.apply) (Function.update m c ((m c).map fun e => (e.1, f.apply e.2))) where
  tight := h.tight.modify fun chunk _ => f.coord_apply chunk
  idOf? c' := by
    rw [idOf?_modify, h.idOf?, Function.update_apply]
    split
    · rename_i hc
      rw [hc, Option.map_map]
      rfl
    · rfl
  getAt? c' := by
    rw [getAt?_modify h.tight.toWellFormed hid, Function.update_apply]
    split
    · rw [h.getAt?, Option.map_map, Option.map_map]
      rfl
    · exact h.getAt? c'

end Holds

/-- What can happen to a store in use, with what is noted of it. -/
inductive Session.Moves : Session → Session → Prop
  | refl (t : Session) : Moves t t
  /-- A chunk leaves its slot. -/
  | empty (t : Session) {s' chunk id} (he : Emptied t.store chunk id s') :
    Moves t
      { t with
        store := s'
        held := Function.update t.held chunk.coord none
        emptied := id.index :: t.emptied }
  /-- A chunk is given a slot. Whatever was disposed before it is of no interest. -/
  | place (t : Session) (gpu : Gpu) {s' chunk id} (hp : Placed t.store chunk id s')
    (hnone : t.store.idOf? chunk.coord = none) :
    Moves t
      { t with
        store := s'
        gpu
        held := Function.update t.held chunk.coord (some (id, chunk))
        issued := id :: t.issued }
  /-- A chunk is changed where it lies. -/
  | modify (t : Session) {c id} (hid : t.store.idOf? c = some id) (f : Chunk.Change) :
    Moves t
      { t with
        store := t.store.modify id f.apply
        held := Function.update t.held c ((t.held c).map fun e => (e.1, f.apply e.2)) }
  | trans {t u v : Session} (h : Moves t u) (h' : Moves u v) : Moves t v

namespace Holds

/-- Whatever happens to a store in use, it has the entries of its directory. -/
theorem moves {t u : Session} (h : Holds t.store t.held) (hm : t.Moves u) :
    Holds u.store u.held := by
  -- on the steps; that the chunk was there is what each of them says
  induction hm with
  | refl t => exact h
  | empty t he => exact h.empty he
  | place t gpu hp hnone => exact h.place hp hnone
  | modify t hid f => exact h.modify hid f
  | trans _ _ ih ih' => exact ih' (ih h)

/-! ## Operations that hit, and those that miss -/

/-- Removing by an id that hits empties one coordinate. -/
theorem remove_eq (h : Holds s m) (hget : s.get? id = some chunk) :
    m.remove id = Function.update m chunk.coord none := by
  funext c
  rw [Function.update_apply, Directory.remove]
  cases hm : m c with
  | none => simp
  | some e =>
    rw [Option.filter_some]
    simp only [decide_not, Bool.not_eq_true', decide_eq_false_iff_not, h.id_iff hget hm, ite_not]

/-- An id that misses removes nothing. -/
theorem remove_eq_self (h : Holds s m) (hget : s.get? id = none) : m.remove id = m := by
  funext c
  rw [Directory.remove]
  cases hm : m c with
  | none => rfl
  | some e => rw [Option.filter_some, if_pos (by simpa using h.id_ne hget hm)]

/-- Changing by an id that hits changes one entry. -/
theorem change_eq (h : Holds s m) (hget : s.get? id = some chunk) (f : Chunk → Chunk) :
    m.change id f =
      Function.update m chunk.coord ((m chunk.coord).map fun e => (e.1, f e.2)) := by
  funext c
  rw [Function.update_apply, Directory.change]
  cases hm : m c with
  | none =>
    split
    · rename_i hc
      rw [← hc, hm]
      rfl
    · rfl
  | some e =>
    rw [Option.map_some]
    -- an id belongs to one coordinate only
    simp only [h.id_iff hget hm]
    split
    · rename_i hc
      rw [← hc, hm, Option.map_some]
    · rfl

/-- An id that misses changes nothing. -/
theorem change_eq_self (h : Holds s m) (hget : s.get? id = none) (f : Chunk → Chunk) :
    m.change id f = m := by
  funext c
  rw [Directory.change]
  cases hm : m c with
  | none => rfl
  | some e => rw [Option.map_some, if_neg (h.id_ne hget hm)]

/-- The store and its directory miss the same coordinates. -/
theorem held_eq_none (h : Holds s m) : s.idOf? c = none ↔ m c = none := by
  rw [h.idOf?, Option.map_eq_none_iff]

/-- Taking out by coordinate fails only where there is no entry. -/
theorem removeAt?_eq_none (h : Holds s m) : s.removeAt? c = none ↔ m c = none := by
  rw [← h.held_eq_none]
  cases hid : s.idOf? c with
  | none =>
    unfold removeAt?
    rw [hid]
    exact ⟨fun _ => rfl, fun _ => rfl⟩
  | some id =>
    rcases h.tight.get? hid with ⟨chunk, hget, -⟩
    rcases exists_emptied hget with ⟨s', hremove, -⟩
    rw [removeAt?_of_idOf? hid, hremove]
    exact ⟨nofun, nofun⟩

/-- Taking out by id fails only where no entry has the id. -/
theorem remove?_eq_none_iff (h : Holds s m) :
    s.remove? id = none ↔ ∀ c chunk, m c ≠ some (id, chunk) := by
  rw [remove?_eq_none, Option.eq_none_iff_forall_ne_some]
  exact ⟨fun hget c chunk hm => hget chunk (h.entry.1 hm).1,
    fun hm chunk hget => hm chunk.coord chunk (h.entry.2 ⟨hget, rfl⟩)⟩

/-- What is taken out is the chunk of the entry. -/
theorem removed (h : Holds s m) (hm : m c = some (id, chunk)) :
    (s.remove? id).map Prod.fst = some chunk ∧ (s.removeAt? c).map Prod.fst = some chunk := by
  rcases exists_emptied (h.entry.1 hm).1 with ⟨s', hremove, -⟩
  have hid : s.idOf? c = some id := by rw [h.idOf?, hm, Option.map_some]
  rw [removeAt?_of_idOf? hid, hremove]
  exact ⟨rfl, rfl⟩

/-- An insertion replaces the chunk of the entry at the coordinate, and disposes it. -/
theorem replaced (h : Holds s m) (chunk : Chunk) (gpu : Gpu) :
    (s.insert chunk gpu).replaced =
      (m chunk.coord).map fun e => { e.2 with life := (e.2.life.dispose gpu).1 } := by
  rcases insert_cases h.tight.toIntact chunk gpu with
    ⟨hid, hnone, -, -⟩ | ⟨id, old, s₁, hid, hcoord, he, hsome, -, -⟩
  · rw [hnone, h.held_eq_none.1 hid, Option.map_none]
  · rw [hsome, h.entry.2 ⟨get?_eq_some.2 he.held, hcoord⟩, Option.map_some]

/-! ## Runs -/

/-- A removal by id that fails changes nothing. -/
theorem perform_remove {t : Session} (h : Holds t.store t.held)
    (hnone : t.store.remove? id = none) : t.perform (.remove id) = t := by
  have hget := remove?_eq_none.1 hnone
  show Session.mk ((t.store.remove? id).elim t.store Prod.snd) t.gpu (t.held.remove id) t.issued
    (((t.store.get? id).map fun _ => id.index).toList ++ t.emptied) = t
  rw [hnone, h.remove_eq_self hget, hget]
  rfl

/-- A removal by coordinate that fails changes nothing. -/
theorem perform_removeAt {t : Session} (h : Holds t.store t.held)
    (hnone : t.store.removeAt? c = none) : t.perform (.removeAt c) = t := by
  have hm := h.removeAt?_eq_none.1 hnone
  show Session.mk ((t.store.removeAt? c).elim t.store Prod.snd) t.gpu
    (Function.update t.held c none) t.issued
    (((t.store.idOf? c).map (·.index)).toList ++ t.emptied) = t
  rw [hnone, h.held_eq_none.2 hm, ← hm, Function.update_eq_self]
  rfl

/-- Every operation consists of such moves. -/
theorem perform_moves {t : Session} (h : Holds t.store t.held) (op : Op) :
    t.Moves (t.perform op) := by
  cases op with
  | insert chunk =>
    show t.Moves ⟨_, _, _, _, ((t.store.idOf? chunk.coord).map (·.index)).toList ++ t.emptied⟩
    -- another chunk at the coordinate leaves first, and then it is as if there had been none
    rcases insert_cases h.tight.toIntact chunk t.gpu with
      ⟨hid, -, -, hp⟩ | ⟨id, old, s₁, hid, hcoord, he, -, -, hp⟩
    · rw [hid]
      exact .place t _ hp hid
    · have hnone : s₁.idOf? chunk.coord = none := by rw [he.found, if_pos hcoord.symm]
      have hmove := (Session.Moves.empty t he).trans
        (.place _ (t.store.insert chunk t.gpu).gpu hp hnone)
      simp only [hcoord, Function.update_idem] at hmove
      rw [hid]
      exact hmove
  | remove id =>
    -- by id: the coordinate is that of the chunk that is hit
    cases hget : t.store.get? id with
    | none =>
      rw [h.perform_remove (remove?_eq_none.2 hget)]
      exact .refl t
    | some chunk =>
      rcases exists_emptied hget with ⟨s', hremove, he⟩
      show t.Moves ⟨(t.store.remove? id).elim t.store Prod.snd, _, t.held.remove id, _,
        ((t.store.get? id).map fun _ => id.index).toList ++ t.emptied⟩
      rw [h.remove_eq hget, hremove, hget]
      exact .empty t he
  | removeAt c =>
    cases hid : t.store.idOf? c with
    | none =>
      rw [h.perform_removeAt (h.removeAt?_eq_none.2 (h.held_eq_none.1 hid))]
      exact .refl t
    | some id =>
      rcases h.tight.get? hid with ⟨chunk, hget, rfl⟩
      rcases exists_emptied hget with ⟨s', hremove, he⟩
      show t.Moves ⟨(t.store.removeAt? chunk.coord).elim t.store Prod.snd, _, _, _,
        ((t.store.idOf? chunk.coord).map (·.index)).toList ++ t.emptied⟩
      rw [removeAt?_of_idOf? hid, hremove, hid]
      exact .empty t he
  | change id f =>
    show t.Moves { t with store := t.store.modify id f.apply, held := t.held.change id f.apply }
    cases hget : t.store.get? id with
    | none =>
      rw [h.change_eq_self hget, modify_eq_self hget]
      exact .refl t
    | some chunk =>
      rw [h.change_eq hget]
      exact .modify t (h.tight.listed _ _ _ (get?_eq_some.1 hget)) f
  | changeAt c f =>
    show t.Moves { t with store := t.store.modifyAt c f.apply, held := _ }
    unfold modifyAt
    cases hid : t.store.idOf? c with
    | none =>
      have hnone := h.held_eq_none.1 hid
      rw [hnone, Option.map_none, ← hnone, Function.update_eq_self]
      exact .refl t
    | some id => exact .modify t hid f

/-- A run is a chain of what its operations do. -/
theorem performAll_moves {t : Session} (h : Holds t.store t.held) (ops : List Op) :
    t.Moves (t.performAll ops) := by
  induction ops generalizing t with
  | nil => exact .refl t
  | cons op rest ih => exact (h.perform_moves op).trans (ih (h.moves (h.perform_moves op)))

/-- Every operation keeps the store in step with its directory. -/
theorem perform {t : Session} (h : Holds t.store t.held) (op : Op) :
    Holds (t.perform op).store (t.perform op).held :=
  h.moves (h.perform_moves op)

/-- After any run the store has the entries of its directory. -/
theorem performAll {t : Session} (h : Holds t.store t.held) (ops : List Op) :
    Holds (t.performAll ops).store (t.performAll ops).held :=
  h.moves (h.performAll_moves ops)

end Holds

/-! ## Lists -/

/-- Each chunk is listed once, and no two at one coordinate. -/
theorem Intact.nodup_entries (h : s.Intact) : (s.entries.map fun e => e.2.coord).Nodup := by
  have hentries : s.entries.Nodup := by
    apply List.Nodup.filterMap
    · -- an entry comes from one slot only
      rintro ⟨⟨g, held⟩, i⟩ ⟨⟨g', held'⟩, i'⟩ e he he'
      rcases Option.map_eq_some_iff.1 he with ⟨chunk, rfl, rfl⟩
      rcases Option.map_eq_some_iff.1 he' with ⟨chunk', rfl, heq⟩
      cases heq
      rfl
    · apply List.Nodup.of_map Prod.snd
      rw [List.zipIdx_map_snd]
      exact List.nodup_range'
  refine hentries.map_on ?_
  rintro ⟨⟨i, g⟩, chunk⟩ hmem ⟨⟨i', g'⟩, chunk'⟩ hmem' (hcoord : chunk.coord = chunk'.coord)
  have hslot := mem_entries.1 hmem
  have hslot' := mem_entries.1 hmem'
  have hid := h.listed _ _ _ hslot
  rw [hcoord, h.listed _ _ _ hslot'] at hid
  cases hid
  cases hslot.symm.trans hslot'
  rfl

/-- Chunks whose place fits the width of a coordinate have a distance. -/
theorem exists_withDistance (origin : Vec3) {chunks : List Chunk}
    (h : ∀ c ∈ chunks, ∃ x z, c.worldX = .ok x ∧ c.worldZ = .ok z) :
    ∃ keyed, chunks.mapM (withDistance origin) = .ok keyed ∧ keyed.map Prod.snd = chunks ∧
      ∀ e ∈ keyed, withDistance origin e.2 = .ok e := by
  -- distances are computed one by one, and each stays with its chunk
  induction chunks with
  | nil => exact ⟨[], List.mapM_nil, rfl, fun _ he => absurd he List.not_mem_nil⟩
  | cons c rest ih =>
    obtain ⟨x, z, hx, hz⟩ := h c List.mem_cons_self
    obtain ⟨keyed, hmapM, hmap, heach⟩ := ih fun c' hc => h c' (List.mem_cons_of_mem c hc)
    have hkey : ∃ k, withDistance origin c = .ok (k, c) := by
      unfold withDistance Chunk.distanceTo
      rw [hx, hz]
      exact ⟨_, rfl⟩
    obtain ⟨k, hkey⟩ := hkey
    refine ⟨(k, c) :: keyed, ?_, by rw [List.map_cons, hmap], ?_⟩
    · rw [List.mapM_cons, hkey, hmapM]
      rfl
    · rintro e (_ | ⟨_, he⟩)
      · exact hkey
      · exact heach e he

/-- Chunks in the order of their distances are the same chunks, the nearest first. -/
theorem nearestFirst_spec (origin : Vec3) {chunks : List Chunk}
    (h : ∀ c ∈ chunks, ∃ x z, c.worldX = .ok x ∧ c.worldZ = .ok z) :
    ∃ sorted, nearestFirst origin chunks = .ok sorted ∧ sorted.Perm chunks ∧
      sorted.Pairwise fun a b => ∀ i j, withDistance origin a = .ok (i, a) →
        withDistance origin b = .ok (j, b) → i ≤ j := by
  obtain ⟨keyed, hmapM, hmap, heach⟩ := exists_withDistance origin h
  let le : Int × Chunk → Int × Chunk → Bool := fun a b => a.1 ≤ b.1
  have hperm := List.mergeSort_perm keyed le
  have hsorted : (keyed.mergeSort le).Pairwise fun a b => le a b = true := by
    apply List.pairwise_mergeSort
    · intro a b c hab hbc
      simp only [le, decide_eq_true_eq] at hab hbc ⊢
      omega
    · intro a b
      simp only [le, Bool.or_eq_true, decide_eq_true_eq]
      omega
  refine ⟨(keyed.mergeSort le).map Prod.snd, ?_, ?_, ?_⟩
  · unfold nearestFirst
    rw [hmapM]
    rfl
  · exact (hperm.map Prod.snd).trans (List.Perm.of_eq hmap)
  · refine List.pairwise_map.2 (hsorted.imp_of_mem fun {a b} ha hb hle i j hi hj => ?_)
    -- the keys of the sorted list are the distances
    have hkey := Except.ok.inj ((heach a (hperm.mem_iff.1 ha)).symm.trans hi)
    have hkey' := Except.ok.inj ((heach b (hperm.mem_iff.1 hb)).symm.trans hj)
    have hle' : a.1 ≤ b.1 := of_decide_eq_true hle
    rwa [hkey, hkey'] at hle'

/-- The coordinates that are listed are those that have an id. -/
theorem mem_coords : c ∈ s.coords ↔ (s.idOf? c).isSome := by
  unfold coords idOf?
  rw [Std.HashMap.mem_keys, ← Std.HashMap.contains_eq_isSome_getElem?]
  rfl

/-! ## Results -/

/-- Whatever the store is asked, it answers as the directory says. -/
structure Shows (s : ChunkStore) (m : Directory) : Prop where
  getAt? : ∀ c, s.getAt? c = (m c).map Prod.snd
  idOf? : ∀ c, s.idOf? c = (m c).map Prod.fst
  contains : ∀ c, s.contains c = (m c).isSome
  finite : {c | (m c).isSome}.Finite
  size : s.size = {c | (m c).isSome}.ncard
  /-- An id finds a chunk exactly if it is the id of an entry. -/
  get? : ∀ id chunk, s.get? id = some chunk ↔ ∃ c, m c = some (id, chunk)
  /-- The id of an entry finds its chunk, which lies at its coordinate. -/
  resolves : ∀ c id chunk, m c = some (id, chunk) → s.get? id = some chunk ∧ chunk.coord = c
  entries : ∀ id chunk, (id, chunk) ∈ s.entries ↔ ∃ c, m c = some (id, chunk)
  entries_nodup : (s.entries.map fun e => e.2.coord).Nodup
  coords : ∀ c, c ∈ s.coords ↔ (m c).isSome
  coords_nodup : s.coords.Nodup
  /-- Where every chunk has a distance, they are listed by it. -/
  byDistance : ∀ origin,
    (∀ c id chunk, m c = some (id, chunk) → ∃ x z, chunk.worldX = .ok x ∧ chunk.worldZ = .ok z) →
    ∃ sorted, s.byDistance origin = .ok sorted ∧
      (∀ chunk, chunk ∈ sorted ↔ ∃ c id, m c = some (id, chunk)) ∧
      (sorted.map (·.coord)).Nodup ∧
      sorted.Pairwise fun a b => ∀ i j, withDistance origin a = .ok (i, a) →
        withDistance origin b = .ok (j, b) → i ≤ j
  free : ∀ i, i ∈ s.free ↔ ∃ g, s.slots[i]? = some ⟨g, none⟩
  free_nodup : s.free.Nodup

/-- A store that has the entries of a directory answers as that says. -/
theorem Holds.shows (h : Holds s m) : Shows s m := by
  -- coordinates, ids and chunks are all read off the entries
  have hcoords : ∀ c, c ∈ s.coords ↔ (m c).isSome := by
    intro c
    rw [mem_coords, h.idOf?, Option.isSome_map]
  have hkeys : {c | (m c).isSome} = (s.coords.toFinset : Set ChunkCoord) := by
    ext c
    rw [Finset.mem_coe, List.mem_toFinset, hcoords]
    rfl
  have hget : ∀ id chunk, s.get? id = some chunk ↔ ∃ c, m c = some (id, chunk) := fun id chunk =>
    ⟨fun hget => ⟨_, h.entry.2 ⟨hget, rfl⟩⟩, fun ⟨_, hm⟩ => (h.entry.1 hm).1⟩
  have hentries : ∀ id chunk, (id, chunk) ∈ s.entries ↔ ∃ c, m c = some (id, chunk) := by
    intro id chunk
    rw [mem_entries, ← get?_eq_some, hget]
  have hchunks : ∀ chunk, chunk ∈ s.chunks ↔ ∃ c id, m c = some (id, chunk) := by
    intro chunk
    simp only [chunks, List.mem_map, Prod.exists, exists_eq_right, hentries]
    exact exists_comm
  have hnodup : s.coords.Nodup := Std.HashMap.nodup_keys
  refine ⟨h.getAt?, h.idOf?, fun c => ?_, ?_, ?_, hget, fun _ _ _ => h.entry.1,
    hentries, h.tight.nodup_entries, hcoords, hnodup, fun origin hplaces => ?_,
    fun i => ⟨h.tight.free i, fun ⟨g, hslot⟩ => h.tight.vacant i g hslot⟩, h.tight.free_nodup⟩
  · have hid : s.contains c = (s.idOf? c).isSome := Std.HashMap.contains_eq_isSome_getElem?
    rw [hid, h.idOf?, Option.isSome_map]
  · rw [hkeys]
    exact Finset.finite_toSet _
  · rw [hkeys, Set.ncard_coe_finset, List.toFinset_card_of_nodup hnodup]
    exact Std.HashMap.length_keys.symm
  · have hfits : ∀ c ∈ s.chunks, ∃ x z, c.worldX = .ok x ∧ c.worldZ = .ok z := by
      intro chunk hmem
      rcases (hchunks chunk).1 hmem with ⟨c, id, hm⟩
      exact hplaces c id chunk hm
    rcases nearestFirst_spec origin hfits with ⟨sorted, hsorted, hperm, hnearest⟩
    refine ⟨sorted, hsorted, fun chunk => hperm.mem_iff.trans (hchunks chunk), ?_, hnearest⟩
    rw [(hperm.map _).nodup_iff, chunks, List.map_map]
    exact h.tight.nodup_entries

/-- After any operations, with whatever ids, the store answers as the map from coordinates to chunks
does that the operations describe, and its free slots are exactly the empty ones. A chunk that is
replaced is disposed. A removal fails exactly where the map has no entry, and changes nothing then;
otherwise it gives the chunk of the entry. -/
theorem store_refines_directory (gpu : Gpu) (ops : List Op) :
    let t := (Session.start gpu).performAll ops
    Shows t.store t.held ∧
      (∀ chunk, (t.store.insert chunk t.gpu).replaced = (t.held chunk.coord).map fun e =>
          { e.2 with life := (e.2.life.dispose t.gpu).1 }) ∧
      (∀ chunk old, (t.store.insert chunk t.gpu).replaced = some old → old.isDisposed = true) ∧
      (∀ id, (t.store.remove? id = none ↔ ∀ c chunk, t.held c ≠ some (id, chunk)) ∧
        (t.store.remove? id = none → t.perform (.remove id) = t)) ∧
      (∀ c, (t.store.removeAt? c = none ↔ t.held c = none) ∧
        (t.store.removeAt? c = none → t.perform (.removeAt c) = t)) ∧
      ∀ c id chunk, t.held c = some (id, chunk) →
        (t.store.remove? id).map Prod.fst = some chunk ∧
        (t.store.removeAt? c).map Prod.fst = some chunk := by
  intro t
  have h : Holds t.store t.held := holds_empty.performAll (t := Session.start gpu) ops
  refine ⟨h.shows, fun chunk => h.replaced chunk t.gpu, fun chunk old hold => ?_,
    fun id => ⟨h.remove?_eq_none_iff, h.perform_remove⟩,
    fun c => ⟨h.removeAt?_eq_none, h.perform_removeAt⟩, fun c id chunk => h.removed⟩
  rw [h.replaced, Option.map_eq_some_iff] at hold
  rcases hold with ⟨e, -, rfl⟩
  exact Lifecycle.isDisposed_dispose

end ChunkStore

end VoxelWorld
