import VoxelWorld.Proofs.Store.Directory

/-!
# Proofs.Store.Ids — an id finds its chunk or nothing

* `Numbered` ties the generation of a slot to the number of chunks that have left it, and the ids
  that were given out to the generation of their slot. Whatever happens keeps it as long as no slot
  is left `2 ^ 32` times (`Numbered.moves`).
* `Op.Ends` are the operations that end the stay of a chunk. The others leave it in the directory
  (`held_of_not_ends`), and after one of these the slot has been left once more
  (`count_lt_of_ends`).
* `ids_find_one_chunk` collects them.
-/

namespace VoxelWorld.ChunkStore

variable {s s' : ChunkStore} {issued : List ChunkId} {emptied : List Nat} {c : ChunkCoord}
  {id : ChunkId} {chunk : Chunk}

/-! ## Generations -/

theorem nextGeneration_of_lt {g : Nat} (h : g + 1 < 4294967296) : nextGeneration g = g + 1 :=
  Nat.mod_eq_of_lt h

/-- The generation of a slot is the number of chunks that have left it. An id that was given out
is not ahead of its slot, and behind it if the slot is empty. -/
structure Numbered (s : ChunkStore) (issued : List ChunkId) (emptied : List Nat) : Prop where
  generation : ∀ i g held, s.slots[i]? = some ⟨g, held⟩ → g = emptied.count i
  left : ∀ i ∈ emptied, i < s.slots.size
  given : ∀ id ∈ issued, ∃ g held, s.slots[id.index]? = some ⟨g, held⟩ ∧ id.generation ≤ g ∧
    (held = none → id.generation < g)
  nodup : issued.Nodup

/-- Before anything was given out. -/
theorem numbered_empty : Numbered .empty [] [] where
  generation i g held h := by
    unfold ChunkStore.empty at h
    simp at h
  left i h := by cases h
  given id h := by cases h
  nodup := List.nodup_nil

/-- A changed chunk stays in its slot, under its id. -/
theorem getElem?_modify_of_get? (h : s.get? id = some chunk) (f : Chunk → Chunk) (i : Nat) :
    (s.modify id f).slots[i]? =
      if i = id.index then some ⟨id.generation, some (f chunk)⟩ else s.slots[i]? := by
  rw [getElem?_modify]
  by_cases hi : i = id.index
  · rw [if_pos hi.symm, if_pos hi, hi, get?_eq_some.1 h, Option.map_some, Slot.modify_self]
  · rw [if_neg (Ne.symm hi), if_neg hi]

/-- Changing a chunk through its id is not seen through another one. -/
theorem get?_modify_of_ne {id' : ChunkId} (hne : id' ≠ id) (f : Chunk → Chunk) :
    (s.modify id f).get? id' = s.get? id' := by
  cases hget : s.get? id with
  | none => rw [modify_eq_self hget]
  | some chunk =>
    unfold ChunkStore.get?
    rw [getElem?_modify_of_get? hget]
    by_cases hi : id'.index = id.index
    · -- an older or newer id of the same slot finds nothing there
      have hg : id.generation ≠ id'.generation := by
        intro hg
        rcases id with ⟨i, g⟩
        rcases id' with ⟨i', g'⟩
        obtain rfl : i' = i := hi
        obtain rfl : g = g' := hg
        exact hne rfl
      rw [if_pos hi, hi, get?_eq_some.1 hget]
      simp only [hg, if_false]
    · rw [if_neg hi]

/-- A slot that is as it was is still there. -/
theorem lt_size_of_slot_eq {i : Nat} (h : s'.slots[i]? = s.slots[i]?) (hlt : i < s.slots.size) :
    i < s'.slots.size := by
  rw [Array.getElem?_eq_getElem hlt] at h
  exact (Array.getElem?_eq_some_iff.1 h).1

namespace Numbered

/-- The next generation of a slot is one more, as long as there are numbers left. -/
theorem empty (h : Numbered s issued emptied) (he : Emptied s chunk id s')
    (hlt : (id.index :: emptied).count id.index < 4294967296) :
    Numbered s' issued (id.index :: emptied) := by
  have hg := h.generation _ _ _ he.held
  rw [List.count_cons_self, ← hg] at hlt
  have hslot := he.slot
  rw [nextGeneration_of_lt hlt] at hslot
  -- one more chunk has left the slot, and its generation has gone up by one with it
  refine ⟨fun i g held hheld => ?_, fun i hi => ?_, fun id' hid => ?_, h.nodup⟩
  · by_cases hi : i = id.index
    · rw [hi, hslot] at hheld
      cases hheld
      rw [hi, List.count_cons_self, ← hg]
    · rw [he.other i hi] at hheld
      rw [List.count_cons_of_ne (Ne.symm hi)]
      exact h.generation i g held hheld
  · by_cases heq : i = id.index
    · rw [heq]
      exact (Array.getElem?_eq_some_iff.1 hslot).1
    · exact lt_size_of_slot_eq (he.other i heq) (h.left i ((List.mem_cons.1 hi).resolve_left heq))
  · rcases h.given id' hid with ⟨g, held, hheld, hle, hlt'⟩
    by_cases hi : id'.index = id.index
    · rw [hi, he.held] at hheld
      cases hheld
      rw [hi]
      exact ⟨_, _, hslot, Nat.le_succ_of_le hle, fun _ => Nat.lt_succ_of_le hle⟩
    · rw [he.other _ hi]
      exact ⟨g, held, hheld, hle, hlt'⟩

/-- The id that is given out is a new one: the earlier ids of an empty slot are behind it. -/
theorem place (h : Numbered s issued emptied) (hp : Placed s chunk id s') :
    Numbered s' (id :: issued) emptied := by
  refine ⟨fun i g held hheld => ?_, fun i hi => ?_, fun id' hid => ?_,
    List.nodup_cons.2 ⟨fun hmem => ?_, h.nodup⟩⟩
  · by_cases hi : i = id.index
    · rw [hi, hp.slot] at hheld
      cases hheld
      rw [hi]
      rcases hp.vacant with hold | rfl
      · exact h.generation _ _ _ hold
      · -- no chunk has left a slot that was not there
        exact (List.count_eq_zero.2 fun hmem => Nat.lt_irrefl _ (h.left _ hmem)).symm
    · rw [hp.other i hi] at hheld
      exact h.generation i g held hheld
  · by_cases heq : i = id.index
    · rw [heq]
      exact (Array.getElem?_eq_some_iff.1 hp.slot).1
    · exact lt_size_of_slot_eq (hp.other i heq) (h.left i hi)
  · by_cases heq : id' = id
    · rw [heq]
      exact ⟨_, _, hp.slot, Nat.le_refl _, nofun⟩
    · rcases h.given id' ((List.mem_cons.1 hid).resolve_left heq) with ⟨g, held, hheld, hle, hlt⟩
      by_cases hi : id'.index = id.index
      · rw [hi]
        rw [hi] at hheld
        rcases hp.vacant with hold | rfl
        · cases hold.symm.trans hheld
          exact ⟨_, _, hp.slot, hle, nofun⟩
        · exact absurd (Array.getElem?_eq_some_iff.1 hheld).1 (Nat.lt_irrefl _)
      · rw [hp.other _ hi]
        exact ⟨g, held, hheld, hle, hlt⟩
  · -- an id handed out before has an older generation than its emptied slot
    rcases h.given id hmem with ⟨g, held, hheld, -, hlt⟩
    rcases hp.vacant with hold | rfl
    · cases hold.symm.trans hheld
      exact Nat.lt_irrefl _ (hlt rfl)
    · exact absurd (Array.getElem?_eq_some_iff.1 hheld).1 (Nat.lt_irrefl _)

/-- A change leaves the slots as they were numbered. -/
theorem modify (h : Numbered s issued emptied) (id : ChunkId) (f : Chunk → Chunk) :
    Numbered (s.modify id f) issued emptied := by
  cases hget : s.get? id with
  | none =>
    rw [modify_eq_self hget]
    exact h
  | some chunk =>
    have hslot := get?_eq_some.1 hget
    -- the slot of the chunk keeps its generation, the others keep everything
    refine ⟨fun i g held hheld => ?_, fun i hi => ?_, fun id' hid => ?_, h.nodup⟩
    · rw [getElem?_modify_of_get? hget] at hheld
      split at hheld
      · rename_i hi
        cases hheld
        rw [hi]
        exact h.generation _ _ _ hslot
      · exact h.generation i g held hheld
    · show i < (s.slots.modify id.index _).size
      rw [Array.size_modify]
      exact h.left i hi
    · rcases h.given id' hid with ⟨g, held, hheld, hle, hlt⟩
      rw [getElem?_modify_of_get? hget]
      split
      · rename_i hi
        rw [hi, hslot] at hheld
        cases hheld
        exact ⟨_, _, rfl, hle, nofun⟩
      · exact ⟨g, held, hheld, hle, hlt⟩

end Numbered

/-! ## Operations -/

variable {t : Session}

namespace Session

/-- What is noted is never struck out. -/
theorem Moves.suffix {t u : Session} (hm : t.Moves u) : t.emptied <:+ u.emptied := by
  induction hm with
  | refl | place | modify => exact List.suffix_rfl
  | empty => exact List.suffix_cons _ _
  | trans _ _ ih ih' => exact ih.trans ih'

/-- What has left a slot once is counted from then on. -/
theorem Moves.count_le {t u : Session} (hm : t.Moves u) (i : Nat) :
    t.emptied.count i ≤ u.emptied.count i :=
  hm.suffix.sublist.count_le i

/-- An operation empties at most one slot. -/
theorem length_emptied_performAll (t : Session) (ops : List Op) :
    (t.performAll ops).emptied.length ≤ t.emptied.length + ops.length := by
  induction ops generalizing t with
  | nil => exact Nat.le_refl _
  | cons op rest ih =>
    have hop : (t.perform op).emptied.length ≤ t.emptied.length + 1 := by
      cases op with
      | insert | remove | removeAt =>
        simp only [perform, List.length_append]
        rw [Nat.add_comm]
        exact Nat.add_le_add_left Option.length_toList_le _
      | change | changeAt => exact Nat.le_succ _
    have hrest := ih (t.perform op)
    rw [List.length_cons]
    show (performAll (t.perform op) rest).emptied.length ≤ _
    omega

/-- No slot can be left more often than there are operations. -/
theorem count_emptied_le (gpu : Gpu) (ops : List Op) (i : Nat) :
    ((start gpu).performAll ops).emptied.count i ≤ ops.length := by
  have hlength := (start gpu).length_emptied_performAll ops
  rw [start, List.length_nil, Nat.zero_add] at hlength
  exact List.count_le_length.trans hlength

end Session

/-- Whatever happens keeps the numbers, as long as there are some left. -/
theorem Numbered.moves {t u : Session} (h : Numbered t.store t.issued t.emptied) (hm : t.Moves u)
    (hlt : ∀ i, u.emptied.count i < 4294967296) : Numbered u.store u.issued u.emptied := by
  induction hm with
  | refl t => exact h
  | empty t he => exact h.empty he (hlt _)
  | place t gpu hp hnone => exact h.place hp
  | modify t hid f => exact h.modify _ f.apply
  | trans _ hlater ih ih' =>
    exact ih' (ih h fun i => (hlater.count_le i).trans_lt (hlt i)) hlt

/-! ## The stay of a chunk -/

/-- The operations that end the stay of the chunk that has this id and lies at this coordinate: it
is removed by either of them, or another one takes its place. -/
def Op.Ends (id : ChunkId) (c : ChunkCoord) : Op → Prop
  | insert chunk => chunk.coord = c
  | remove id' => id' = id
  | removeAt c' => c' = c
  | change _ _ | changeAt _ _ => False

/-- What an operation makes of that chunk while it stays. -/
def Op.changed (id : ChunkId) (c : ChunkCoord) (chunk : Chunk) : Op → Chunk
  | change id' f => if id = id' then f.apply chunk else chunk
  | changeAt c' f => if c = c' then f.apply chunk else chunk
  | insert _ | remove _ | removeAt _ => chunk

/-- A chunk stays under its id until an operation ends its stay. -/
theorem held_of_not_ends {op : Op} (h : t.held c = some (id, chunk)) (hop : ¬ op.Ends id c) :
    (t.perform op).held c = some (id, op.changed id c chunk) := by
  -- what would end the stay is excluded, so each operation works on another entry or changes this
  -- one
  cases op with
  | insert chunk' =>
    show Function.update t.held _ _ c = _
    rw [Function.update_of_ne (Ne.symm hop), h]
    rfl
  | remove id' =>
    show (t.held c).filter _ = _
    rw [h, Option.filter_some, if_pos (by simpa using Ne.symm hop)]
    rfl
  | removeAt c' =>
    show Function.update t.held c' none c = _
    rw [Function.update_of_ne (Ne.symm hop), h]
    rfl
  | change id' f =>
    show (t.held c).map _ = _
    rw [h, Option.map_some]
    simp only [Op.changed]
    split <;> rfl
  | changeAt c' f =>
    show Function.update t.held c' _ c = _
    rw [Function.update_apply]
    simp only [Op.changed]
    split
    · rename_i hc
      rw [← hc, h]
      rfl
    · exact h

/-- Ending a stay empties the slot of the chunk. -/
theorem count_of_ends {op : Op} (hholds : Holds t.store t.held) (h : t.held c = some (id, chunk))
    (hop : op.Ends id c) :
    (t.perform op).emptied.count id.index = t.emptied.count id.index + 1 := by
  have hid : t.store.idOf? c = some id := by rw [hholds.idOf?, h, Option.map_some]
  have hget := (hholds.entry.1 h).1
  cases op with
  | insert chunk' =>
    have hc : chunk'.coord = c := hop
    simp only [Session.perform, hc, hid]
    exact List.count_cons_self
  | remove id' =>
    have heq : id' = id := hop
    simp only [Session.perform, heq, hget]
    exact List.count_cons_self
  | removeAt c' =>
    have hc : c' = c := hop
    simp only [Session.perform, hc, hid]
    exact List.count_cons_self
  | change | changeAt => exact hop.elim

/-- A chunk that stays is changed by one operation after the other. -/
theorem held_performAll {ops : List Op} (h : t.held c = some (id, chunk))
    (hops : ∀ op ∈ ops, ¬ op.Ends id c) :
    (t.performAll ops).held c = some (id, ops.foldl (Op.changed id c) chunk) := by
  induction ops generalizing t chunk with
  | nil => exact h
  | cons op rest ih =>
    exact ih (held_of_not_ends h (hops op List.mem_cons_self))
      fun op' hmem => hops op' (List.mem_cons_of_mem op hmem)

/-- Once the stay has ended the slot is ahead of the id, whatever happens to it later. -/
theorem count_lt_of_ends {ops : List Op} (hholds : Holds t.store t.held)
    (h : t.held c = some (id, chunk)) (hops : ∃ op ∈ ops, op.Ends id c) :
    t.emptied.count id.index < (t.performAll ops).emptied.count id.index := by
  induction ops generalizing t chunk with
  | nil =>
    rcases hops with ⟨op, hmem, -⟩
    cases hmem
  | cons op rest ih =>
    by_cases hop : op.Ends id c
    · -- this one empties the slot, and no count goes down after it
      have hlater := ((hholds.perform op).performAll_moves rest).count_le id.index
      rw [count_of_ends hholds h hop] at hlater
      exact hlater
    · have hrest : ∃ op' ∈ rest, op'.Ends id c := by
        rcases hops with ⟨op', hmem, hends⟩
        refine ⟨op', (List.mem_cons.1 hmem).resolve_left ?_, hends⟩
        rintro rfl
        exact hop hends
      have hnow := (hholds.perform_moves op).count_le id.index
      exact hnow.trans_lt (ih (hholds.perform op) (held_of_not_ends h hop) hrest)

/-! ## Results -/

/-- An id that an insertion gives out finds that chunk, with the changes made to it since, until its
stay ends: reading gives it, and writing changes it and what no other id finds. From then on the id
finds nothing, whatever lies in the slot. No id is given out twice. -/
theorem ids_find_one_chunk (gpu : Gpu) (before after : List Op) (chunk : Chunk)
    (hlt : ∀ i,
      ((Session.start gpu).performAll (before ++ .insert chunk :: after)).emptied.count i <
        4294967296) :
    let t₀ := (Session.start gpu).performAll before
    let t := t₀.performAll (.insert chunk :: after)
    let id := (t₀.store.insert chunk t₀.gpu).id
    t.issued.Nodup ∧ id ∉ t₀.issued ∧
      ((∀ op ∈ after, ¬ op.Ends id chunk.coord) →
        let now := after.foldl (Op.changed id chunk.coord) chunk
        t.store.get? id = some now ∧ ∀ f : Chunk → Chunk,
          (t.store.modify id f).get? id = some (f now) ∧
          ∀ id', id' ≠ id → (t.store.modify id f).get? id' = t.store.get? id') ∧
      ((∃ op ∈ after, op.Ends id chunk.coord) →
        t.store.get? id = none ∧ ∀ f : Chunk → Chunk, t.store.modify id f = t.store) := by
  intro t₀ t id
  have hrun : (Session.start gpu).performAll (before ++ .insert chunk :: after) = t :=
    List.foldl_append
  rw [hrun] at hlt
  let t₁ := t₀.perform (.insert chunk)
  have hbefore : (Session.start gpu).Moves t₀ :=
    holds_empty.performAll_moves (t := Session.start gpu) before
  have hholds₀ : Holds t₀.store t₀.held := holds_empty.moves hbefore
  have hinsert : t₀.Moves t₁ := hholds₀.perform_moves (.insert chunk)
  have hholds₁ : Holds t₁.store t₁.held := hholds₀.moves hinsert
  have hafter : t₁.Moves t := hholds₁.performAll_moves after
  have hholds : Holds t.store t.held := hholds₁.moves hafter
  have hnumbered₁ : Numbered t₁.store t₁.issued t₁.emptied :=
    numbered_empty.moves (hbefore.trans hinsert) fun i => (hafter.count_le i).trans_lt (hlt i)
  have hnumbered : Numbered t.store t.issued t.emptied := hnumbered₁.moves hafter hlt
  have hheld : t₁.held chunk.coord = some (id, chunk) := Function.update_self _ _ _
  have hnew : id ∉ t₀.issued := (List.nodup_cons.1 hnumbered₁.nodup).1
  refine ⟨hnumbered.nodup, hnew, fun hstay => ?_, fun hends => ?_⟩
  · -- the chunk stayed, and its entry has its id
    have hget : t.store.get? id = some (after.foldl (Op.changed id chunk.coord) chunk) :=
      (hholds.entry.1 (held_performAll (t := t₁) hheld hstay)).1
    refine ⟨hget, fun f => ⟨?_, fun id' hne => ?_⟩⟩
    · rw [get?_eq_some, getElem?_modify_of_get? hget, if_pos rfl]
    · exact get?_modify_of_ne hne f
  · -- its slot went on, and an id that finds something has the generation of its slot
    have hget : t.store.get? id = none := by
      rw [Option.eq_none_iff_forall_ne_some]
      intro other hother
      have hslot := hnumbered.generation _ _ _ (get?_eq_some.1 hother)
      have hslot₁ := hnumbered₁.generation _ _ _ (get?_eq_some.1 (hholds₁.entry.1 hheld).1)
      have hcount := count_lt_of_ends hholds₁ hheld hends
      exact Nat.lt_irrefl _ (hcount.trans_eq (hslot.symm.trans hslot₁))
    exact ⟨hget, modify_eq_self hget⟩

/-- A store in which the same chunk was put in, taken out and put in again. -/
def reinserted : Session :=
  (Session.start {}).performAll
    [.insert default, .removeAt (default : Chunk).coord, .insert default]

/-- The chunk came back under another id, and the one that it had before finds nothing. -/
theorem ids_find_one_chunk_reinserted :
    (∀ i, reinserted.emptied.count i < 4294967296) ∧
      ∃ id id', id ≠ id' ∧ reinserted.issued = [id', id] ∧ reinserted.store.get? id = none ∧
        reinserted.store.get? id' = some default := by
  have hlt : ∀ i, reinserted.emptied.count i < 4294967296 := by
    intro i
    exact Nat.lt_of_le_of_lt (Session.count_emptied_le {} _ i) (show 3 < 4294967296 by decide)
  have hfirst := ids_find_one_chunk {} [] [.removeAt (default : Chunk).coord, .insert default]
    default hlt
  have hsecond := ids_find_one_chunk {} [.insert default, .removeAt (default : Chunk).coord] []
    default hlt
  have hgone := (hfirst.2.2.2 ⟨_, List.mem_cons_self, rfl⟩).1
  have hthere := (hsecond.2.2.1 fun op hop => absurd hop List.not_mem_nil).1
  refine ⟨hlt, _, _, fun heq => ?_, rfl, hgone, hthere⟩
  exact hsecond.2.1 (List.mem_singleton.2 heq.symm)

end VoxelWorld.ChunkStore
