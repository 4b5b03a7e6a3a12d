import VoxelWorld.Proofs.Store.Directory
import VoxelWorld.Proofs.World.Unload

/-!
# Proofs.World.Release — chunks that are let go are not lost

Chunks are let go one by one, and each of them may fail to be written.

* `Careful` is all that is asked of the way in which chunks are written; saving to files is
  careful (`ChunkFiles.save_careful`).
* `LetGo` says what letting some chunks go does to a world: they are disposed of, and what was
  not fresh is in its file. All others are resident as they were.
* Each attempt, whether or not it fails, releases at most one more chunk (`LetGo.unloadBy`), and
  so a list of attempts releases some of those it asks for (`LetGo.unloadAllBy`). A chunk that
  makes it stop is `Stuck`.
* `unload_loses_no_chunk` draws the conclusion for one chunk and for those that are far away, in
  any order.
-/

namespace VoxelWorld

/-- The way in which chunks are written can be relied on as far as this: what it reports as written
is in the file of the chunk, and whatever it reports, the files of other chunks are as before. -/
structure Careful (save : ChunkFiles → Disk → Chunk → Except IoError Unit × Disk) : Prop where
  stored : ∀ {f d chunk d'}, save f d chunk = (.ok (), d') →
    d'.get? (f.path chunk.coord) = some chunk.toBytes
  other : ∀ {f d chunk c}, c ≠ chunk.coord →
    (save f d chunk).2.get? (f.path c) = d.get? (f.path c)

theorem ChunkFiles.save_careful : Careful ChunkFiles.save :=
  ⟨fun h => stored_of_save h, fun hne => get?_save hne⟩

/-- Writing nothing is careful, as long as it is reported. -/
theorem Careful.never {e : IoError} : Careful fun _ disk _ => (.error e, disk) where
  stored h := by cases h
  other _ := rfl

namespace Lifecycle

/-- A disposed chunk has no meshes and is otherwise as it was. -/
def disposed (life : Lifecycle) : Lifecycle := { life with slots := .disposed }

theorem dispose_eq {life : Lifecycle} {gpu : Gpu} : (life.dispose gpu).1 = life.disposed := by
  rcases life with ⟨dirty, lightDirty, fresh, visible, ticket, slots⟩
  cases slots <;> rfl

end Lifecycle

namespace World

variable {save : ChunkFiles → Disk → Chunk → Except IoError Unit × Disk} {f : ChunkFiles}
  {w w₁ w₂ : World} {c center : ChunkCoord} {radius : Int} {chunk : Chunk} {gone more : List Chunk}

/-- The state of a chunk that is not resident is the last one it had. -/
theorem life?_of_get? {id : ChunkId} (h : w.store.get? id = none) :
    w.life? id = w.retired.lookup id := by
  unfold World.life?
  rw [h]

section Retiring

variable {id id' : ChunkId} {life : Lifecycle}
  (he : ChunkStore.Emptied w.store chunk id w₁.store) (hr : w₁.retired = (id, life) :: w.retired)

include he hr

theorem life?_retired : w₁.life? id = some life := by
  rw [life?_of_get? he.get?_self, hr]
  exact List.lookup_cons_self

/-- What an id that finds no chunk says of the last one stays as it is. -/
theorem life?_retired_of_gone (h : w.store.get? id' = none) : w₁.life? id' = w.life? id' := by
  have hne : id' ≠ id := by
    rintro rfl
    rw [ChunkStore.get?_eq_some.2 he.held] at h
    cases h
  rw [life?_of_get? (he.get?_eq_none h), life?_of_get? h, hr, List.lookup_cons,
    beq_false_of_ne hne]

end Retiring

/-- The listed chunks were let go, and nothing else happened to any chunk. -/
structure LetGo (f : ChunkFiles) (w w' : World) (gone : List Chunk) : Prop where
  was : ∀ chunk ∈ gone, w.chunkAt? chunk.coord = some chunk
  nodup : (gone.map Chunk.coord).Nodup
  chunkAt? : ∀ c, w'.chunkAt? c = if c ∈ gone.map Chunk.coord then none else w.chunkAt? c
  /-- Who still refers to a chunk that is gone finds it disposed. -/
  life? : ∀ chunk ∈ gone, ∀ id, w.store.idOf? chunk.coord = some id →
    w'.store.get? id = none ∧ w'.life? id = some chunk.life.disposed
  stored : ∀ chunk ∈ gone, chunk.isFresh = false →
    w'.disk.get? (f.path chunk.coord) = some chunk.toBytes
  unloaded : w'.stats.unloaded = w.stats.unloaded + gone.length
  saved : w'.stats.saved = w.stats.saved + gone.countP fun chunk => !chunk.isFresh
  files : w'.files = some f
  intact : w'.store.Intact
  idOf? : ∀ c, c ∉ gone.map Chunk.coord → w'.store.idOf? c = w.store.idOf? c

/-- A chunk that is not fresh is still there, because it could not be written. -/
def Stuck (save : ChunkFiles → Disk → Chunk → Except IoError Unit × Disk) (f : ChunkFiles)
    (w : World) (c : ChunkCoord) (e : IoError) : Prop :=
  ∃ chunk d, w.chunkAt? c = some chunk ∧ chunk.isFresh = false ∧ (save f d chunk).1 = .error e

namespace LetGo

/-- At first no chunk has gone. -/
theorem start (hfiles : w.files = some f) (hi : w.store.Intact) : LetGo f w w [] where
  was _ hmem := absurd hmem List.not_mem_nil
  nodup := List.nodup_nil
  chunkAt? _ := (if_neg List.not_mem_nil).symm
  life? _ hmem := absurd hmem List.not_mem_nil
  stored _ hmem := absurd hmem List.not_mem_nil
  unloaded := rfl
  saved := rfl
  files := hfiles
  intact := hi
  idOf? _ _ := rfl

/-- A resident chunk is not among those that are gone. -/
theorem not_mem (h : LetGo f w w₁ gone) (hc : w₁.chunkAt? c = some chunk) :
    c ∉ gone.map Chunk.coord := by
  intro hmem
  rw [h.chunkAt?, if_pos hmem] at hc
  cases hc

/-- What is not resident is not resident any more later. -/
theorem chunkAt?_eq_none (h : LetGo f w w₁ gone) (h' : LetGo f w w₂ (more ++ gone))
    (hc : w₁.chunkAt? c = none) : w₂.chunkAt? c = none := by
  rw [h.chunkAt?] at hc
  rw [h'.chunkAt?, List.map_append]
  split at hc
  · rename_i hmem
    exact if_pos (List.mem_append_right _ hmem)
  · split
    · rfl
    · exact hc

/-- What was resident and is no more is gone. -/
theorem mem (h : LetGo f w w₁ gone) (hwas : w.chunkAt? c = some chunk)
    (hnone : w₁.chunkAt? c = none) : chunk ∈ gone := by
  rw [h.chunkAt?] at hnone
  split at hnone
  · rename_i hmem
    rcases List.mem_map.1 hmem with ⟨chunk', hmem', rfl⟩
    cases (h.was chunk' hmem').symm.trans hwas
    exact hmem'
  · rw [hwas] at hnone
    cases hnone

/-! ## One chunk -/

/-- Writing the file of a resident chunk is no matter to those that are gone. -/
theorem write (h : LetGo f w w₁ gone) (hc : w₁.chunkAt? c = some chunk) {disk : Disk}
    (hother : ∀ c', c' ≠ c → disk.get? (f.path c') = w₁.disk.get? (f.path c')) :
    LetGo f w { w₁ with disk } gone :=
  { h with
    stored := by
      intro chunk' hmem hfresh
      refine (hother _ fun heq => ?_).trans (h.stored chunk' hmem hfresh)
      exact h.not_mem hc (heq ▸ List.mem_map_of_mem hmem) }

/-- A resident chunk whose file holds it is let go. -/
theorem retire (h : LetGo f w w₁ gone) (hc : w₁.chunkAt? chunk.coord = some chunk)
    (hstored : chunk.isFresh = false → w₁.disk.get? (f.path chunk.coord) = some chunk.toBytes) :
    ∃ w₂, w₁.retire chunk.coord (!chunk.isFresh) = (true, w₂) ∧
      LetGo f w w₂ (chunk :: gone) := by
  rcases retire_eq hc (!chunk.isFresh) with ⟨id, store, hid, hemptied, hretire⟩
  have hnew := h.not_mem hc
  have hwas : w.chunkAt? chunk.coord = some chunk := by
    rw [h.chunkAt?, if_neg hnew] at hc
    exact hc
  rw [Lifecycle.dispose_eq] at hretire
  refine ⟨_, hretire, ?_⟩
  refine { was := ?_, nodup := ?_, chunkAt? := fun c => ?_, life? := ?_, stored := ?_,
           unloaded := ?_, saved := ?_, files := h.files, intact := hemptied.intact h.intact,
           idOf? := fun c hc => ?_ }
  · -- one more chunk is gone: the fields of the record one after the other
    exact List.forall_mem_cons.2 ⟨hwas, h.was⟩
  · exact List.nodup_cons.2 ⟨hnew, h.nodup⟩
  · have hat : store.getAt? c = if c = chunk.coord then none else w₁.store.getAt? c :=
      hemptied.getAt? h.intact
    show store.getAt? c = _
    rw [hat, List.map_cons]
    by_cases heq : c = chunk.coord
    · rw [if_pos heq, if_pos (List.mem_cons.2 (.inl heq))]
    · rw [if_neg heq]
      refine (h.chunkAt? c).trans (if_congr ?_ rfl rfl)
      exact ⟨List.mem_cons_of_mem _, fun hmem => (List.mem_cons.1 hmem).resolve_left heq⟩
  · refine List.forall_mem_cons.2 ⟨fun id' hid' => ?_, fun chunk' hmem id' hid' => ?_⟩
    · have hsame : id' = id := by
        rw [← h.idOf? _ hnew, hid] at hid'
        exact (Option.some.inj hid').symm
      subst hsame
      exact ⟨hemptied.get?_self, life?_retired hemptied rfl⟩
    · rcases h.life? chunk' hmem id' hid' with ⟨hgone, hlife⟩
      exact ⟨hemptied.get?_eq_none hgone, (life?_retired_of_gone hemptied rfl hgone).trans hlife⟩
  · exact List.forall_mem_cons.2 ⟨hstored, h.stored⟩
  · show w₁.stats.unloaded + 1 = _
    rw [h.unloaded, List.length_cons, Nat.add_assoc]
  · show w₁.stats.saved + (!chunk.isFresh).toNat = _
    rw [h.saved, List.countP_cons, Nat.add_assoc]
    cases chunk.isFresh <;> rfl
  · have hne : c ≠ chunk.coord := fun heq => hc (List.mem_cons.2 (.inl heq))
    refine (hemptied.found c).trans ((if_neg hne).trans (h.idOf? c fun hmem => hc ?_))
    exact List.mem_cons_of_mem _ hmem

/-- If a resident chunk is reported as written, its file holds it, unless it is fresh. -/
theorem persistBy (h : LetGo f w w₁ gone) (hsave : Careful save)
    (hc : w₁.chunkAt? chunk.coord = some chunk) :
    ∃ r w₂, w₁.persistBy save chunk = (r, w₂) ∧ LetGo f w w₂ gone ∧
      w₂.chunkAt? chunk.coord = some chunk ∧
      (∀ e, r = .error e → Stuck save f w₂ chunk.coord e) ∧
      ∀ b, r = .ok b → b = !chunk.isFresh ∧
        (chunk.isFresh = false → w₂.disk.get? (f.path chunk.coord) = some chunk.toBytes) := by
  have hf := h.files
  unfold World.persistBy
  simp only [hf]
  -- fresh chunks are not written, so there is nothing that could fail
  cases hfresh : chunk.isFresh with
  | true =>
    refine ⟨.ok false, w₁, rfl, h, hc, nofun, fun b hb => ⟨?_, nofun⟩⟩
    cases hb
    rfl
  | false =>
    rcases hwrite : save f w₁.disk chunk with ⟨result, disk⟩
    -- a careful write touches no other file
    have hother : ∀ c', c' ≠ chunk.coord → disk.get? (f.path c') = w₁.disk.get? (f.path c') := by
      intro c' hne
      have hdisk : (save f w₁.disk chunk).2 = disk := congrArg Prod.snd hwrite
      rw [← hdisk]
      exact hsave.other hne
    have hw := h.write hc hother
    refine ⟨result.map fun _ => true, { w₁ with disk }, by rw [hf]; rfl, hw, hc, ?_⟩
    cases result with
    | error e =>
      refine ⟨fun e' he => ⟨chunk, w₁.disk, hc, hfresh, ?_⟩, nofun⟩
      cases he
      exact congrArg Prod.fst hwrite
    | ok _ =>
      refine ⟨nofun, fun b hb => ?_⟩
      cases hb
      exact ⟨rfl, fun _ => hsave.stored hwrite⟩

/-- One attempt lets the chunk go if it can be written, and nothing else. -/
theorem unloadBy (h : LetGo f w w₁ gone) (hsave : Careful save) (c : ChunkCoord) :
    ∃ r w₂ more, w₁.unloadBy save c = (r, w₂) ∧ LetGo f w w₂ (more ++ gone) ∧
      (∀ chunk ∈ more, chunk.coord = c) ∧
      (∀ e, r = .error e → more = [] ∧ Stuck save f w₂ c e) ∧
      ∀ b, r = .ok b → more.length = b.toNat ∧ w₂.chunkAt? c = none := by
  unfold World.unloadBy
  cases hc : w₁.chunkAt? c with
  | none =>
    refine ⟨.ok false, w₁, [], rfl, h, fun _ hmem => absurd hmem List.not_mem_nil, nofun,
      fun b hb => ?_⟩
    cases hb
    exact ⟨rfl, hc⟩
  | some chunk =>
    have hcoord : chunk.coord = c := h.intact.coord hc
    subst hcoord
    rcases h.persistBy hsave hc with ⟨r, w₂, hpersist, h₂, hc₂, hstuck, hwritten⟩
    simp only [hpersist]
    -- a failed write leaves the chunk where it was
    cases r with
    | error e =>
      refine ⟨.error e, w₂, [], rfl, h₂, fun _ hmem => absurd hmem List.not_mem_nil,
        fun e' he => ⟨rfl, hstuck e' ?_⟩, nofun⟩
      cases he
      rfl
    | ok b =>
      rcases hwritten b rfl with ⟨rfl, hstored⟩
      rcases h₂.retire hc₂ hstored with ⟨w₃, hretire, h₃⟩
      simp only [hretire]
      refine ⟨.ok true, w₃, [chunk], rfl, h₃, fun _ hmem => ?_, nofun, fun b hb => ?_⟩
      · exact congrArg Chunk.coord (List.mem_singleton.1 hmem)
      · cases hb
        refine ⟨rfl, (h₃.chunkAt? _).trans (if_pos ?_)⟩
        exact List.mem_cons_self

/-- Attempts one after the other let some of the chunks go, and all of them if none fails. -/
theorem unloadAllBy (h : LetGo f w w₁ gone) (hsave : Careful save) (cs : List ChunkCoord) :
    ∃ r w₂ more, w₁.unloadAllBy save cs = (r, w₂) ∧ LetGo f w w₂ (more ++ gone) ∧
      (∀ chunk ∈ more, chunk.coord ∈ cs) ∧ (∀ e, r = .error e → ∃ c ∈ cs, Stuck save f w₂ c e) ∧
      (r = .ok () → ∀ c ∈ cs, w₂.chunkAt? c = none) := by
  -- chunks go one by one until a write fails
  induction cs generalizing w₁ gone with
  | nil =>
    exact ⟨.ok (), w₁, [], rfl, h, fun _ hmem => absurd hmem List.not_mem_nil, nofun,
      fun _ _ hmem => absurd hmem List.not_mem_nil⟩
  | cons c cs ih =>
    rcases h.unloadBy hsave c with ⟨r, w₂, more, hfirst, h₂, hone, hfail, hok⟩
    have hhead : ∀ chunk ∈ more, chunk.coord ∈ c :: cs := fun chunk hmem =>
      List.mem_cons.2 (.inl (hone chunk hmem))
    unfold World.unloadAllBy
    simp only [hfirst]
    cases r with
    | error e =>
      refine ⟨.error e, w₂, more, rfl, h₂, hhead, fun e' he => ?_, nofun⟩
      cases he
      exact ⟨c, List.mem_cons_self, (hfail e rfl).2⟩
    | ok b =>
      rcases ih h₂ with ⟨r, w₃, later, hrest, h₃, htail, hstuck, hall⟩
      refine ⟨r, w₃, later ++ more, hrest, ?_, fun chunk hmem => ?_, fun e he => ?_, fun hr => ?_⟩
      · rw [List.append_assoc]
        exact h₃
      · rcases List.mem_append.1 hmem with hmem | hmem
        · exact List.mem_cons_of_mem _ (htail chunk hmem)
        · exact hhead chunk hmem
      · rcases hstuck e he with ⟨c', hmem, hc'⟩
        exact ⟨c', List.mem_cons_of_mem _ hmem, hc'⟩
      · exact List.forall_mem_cons.2 ⟨h₂.chunkAt?_eq_none h₃ (hok b rfl).2, hall hr⟩

end LetGo

/-! ## What is far away -/

/-- Further than `radius` from the centre along one of the axes. -/
def Far (center : ChunkCoord) (radius : Int) (c : ChunkCoord) : Prop :=
  radius < (c.x - center.x).natAbs ∨ radius < (c.z - center.z).natAbs

instance : Decidable (Far center radius c) := instDecidableOr

/-- The chunk can be measured against the centre: its distances are coordinates, as far as they are
looked at. -/
def Measurable (center : ChunkCoord) (radius : Int) (c : ChunkCoord) : Prop :=
  (c.x - center.x).natAbs ≤ coordMax ∧
    ((c.x - center.x).natAbs ≤ radius → (c.z - center.z).natAbs ≤ coordMax)

instance : Decidable (Measurable center radius c) := instDecidableAnd

theorem axisDistance_eq_ok {a b d : Int} :
    axisDistance a b = .ok d ↔ (a - b).natAbs ≤ coordMax ∧ d = (a - b).natAbs := by
  have hfits : FitsCoord (a - b) ∧ FitsCoord ((a - b).natAbs : Int) ↔
      (a - b).natAbs ≤ coordMax := by
    unfold coordMax
    omega
  unfold axisDistance
  rw [Checked.bind_eq_ok, ← hfits]
  constructor
  · rintro ⟨e, he, hd⟩
    rcases checkCoord_eq_ok.1 he with ⟨hdiff, rfl⟩
    rcases checkCoord_eq_ok.1 hd with ⟨habs, rfl⟩
    exact ⟨⟨hdiff, habs⟩, rfl⟩
  · rintro ⟨⟨hdiff, habs⟩, rfl⟩
    exact ⟨_, checkCoord_of_fits hdiff, checkCoord_of_fits habs⟩

/-- The test gives its answer exactly where the distances are those of coordinates. -/
theorem isOutside_eq_ok {b : Bool} : isOutside center radius c = .ok b ↔
    Measurable center radius c ∧ b = decide (Far center radius c) := by
  unfold isOutside Measurable
  rw [Checked.bind_eq_ok]
  constructor
  · rintro ⟨x, hx, hb⟩
    rcases axisDistance_eq_ok.1 hx with ⟨hxfits, rfl⟩
    -- far along `x` decides by itself; only otherwise is `z` looked at
    split at hb
    · rename_i hfar
      cases Checked.pure_eq_ok.1 hb
      exact ⟨⟨hxfits, fun hle => absurd hfar (Int.not_lt.2 hle)⟩, (decide_eq_true (.inl hfar)).symm⟩
    · rename_i hnear
      rcases Checked.bind_eq_ok.1 hb with ⟨z, hz, hb⟩
      rcases axisDistance_eq_ok.1 hz with ⟨hzfits, rfl⟩
      cases Checked.pure_eq_ok.1 hb
      exact ⟨⟨hxfits, fun _ => hzfits⟩, decide_eq_decide.2 (or_iff_right hnear).symm⟩
  · rintro ⟨⟨hxfits, hzfits⟩, rfl⟩
    refine ⟨_, axisDistance_eq_ok.2 ⟨hxfits, rfl⟩, ?_⟩
    split
    · rename_i hfar
      exact congrArg Except.ok (decide_eq_true (.inl hfar)).symm
    · rename_i hnear
      refine Checked.bind_eq_ok.2
        ⟨_, axisDistance_eq_ok.2 ⟨hzfits (Int.not_lt.1 hnear), rfl⟩, ?_⟩
      exact congrArg Except.ok (decide_eq_decide.2 (or_iff_right hnear).symm)

/-- A test that always gives an answer selects by it. -/
theorem filterM_eq {α : Type} {test : α → Checked Bool} {p : α → Bool} {l : List α}
    (h : ∀ a ∈ l, test a = .ok (p a)) : l.filterM test = .ok (l.filter p) := by
  -- the loop of the library gathers the elements in reverse
  have haux : ∀ acc, l.filterAuxM test acc = .ok ((l.filter p).reverse ++ acc) := by
    induction l with
    | nil => exact fun _ => rfl
    | cons a l ih =>
      intro acc
      rw [List.filterAuxM, h a List.mem_cons_self]
      refine (ih (fun b hb => h b (List.mem_cons_of_mem a hb)) _).trans ?_
      cases hp : p a
      · rw [List.filter_cons_of_neg (by rw [hp]; decide)]
        rfl
      · rw [List.filter_cons_of_pos hp, List.reverse_cons, List.append_assoc]
        rfl
  unfold List.filterM
  rw [haux]
  show Except.ok ((l.filter p).reverse ++ []).reverse = _
  rw [List.append_nil, List.reverse_reverse]

/-- The chunks that are asked for are the residents that are far away. -/
theorem unloadOutsideBy_eq (save : ChunkFiles → Disk → Chunk → Except IoError Unit × Disk)
    (arrange : List Chunk → List Chunk) (hi : w.store.Intact)
    (h : ∀ c chunk, w.chunkAt? c = some chunk → Measurable center radius c) :
    ∃ far : List Chunk, far.Nodup ∧
      (∀ chunk, chunk ∈ far ↔ w.chunkAt? chunk.coord = some chunk ∧
        Far center radius chunk.coord) ∧
      w.unloadOutsideBy save arrange center radius =
        let (result, w') := w.unloadAllBy save ((arrange far).map Chunk.coord)
        .ok (result.map fun _ => far.length, w') := by
  have hfilter : w.store.chunks.filterM (fun chunk => isOutside center radius chunk.coord) =
      .ok (w.store.chunks.filter fun chunk => decide (Far center radius chunk.coord)) :=
    filterM_eq fun chunk hmem => isOutside_eq_ok.2 ⟨h chunk.coord chunk (hi.mem_chunks.1 hmem), rfl⟩
  refine ⟨w.store.chunks.filter fun chunk => decide (Far center radius chunk.coord), ?_, ?_, ?_⟩
  · have hnodup := hi.nodup_entries
    refine List.Nodup.filter _ (List.Nodup.of_map Chunk.coord ?_)
    rwa [ChunkStore.chunks, List.map_map]
  · intro chunk
    rw [List.mem_filter, hi.mem_chunks, decide_eq_true_iff]
    rfl
  · unfold unloadOutsideBy
    rw [hfilter]
    rfl

/-- If all far chunks are gone and no others, their number is known, and who is still there. -/
theorem LetGo.of_far (h : LetGo f w w₁ gone) (hi : w.store.Intact) {far : List Chunk}
    (hnodup : far.Nodup) (hfar : ∀ chunk, chunk ∈ far ↔
      w.chunkAt? chunk.coord = some chunk ∧ Far center radius chunk.coord)
    (hmem : ∀ chunk ∈ gone, chunk ∈ far)
    (hnone : ∀ chunk ∈ far, w₁.chunkAt? chunk.coord = none) :
    gone.length = far.length ∧
      ∀ c, w₁.chunkAt? c = if Far center radius c then none else w.chunkAt? c := by
  have hgone : ∀ chunk, chunk ∈ gone ↔ chunk ∈ far := fun chunk =>
    ⟨hmem chunk, fun hin => h.mem ((hfar chunk).1 hin).1 (hnone chunk hin)⟩
  refine ⟨((List.perm_ext_iff_of_nodup h.nodup.of_map hnodup).2 hgone).length_eq, fun c => ?_⟩
  by_cases hc : Far center radius c
  · rw [if_pos hc]
    cases hwas : w.chunkAt? c with
    | none => rw [h.chunkAt?, hwas, ite_self]
    | some chunk =>
      have hcoord : chunk.coord = c := hi.coord hwas
      subst hcoord
      exact hnone chunk ((hfar chunk).2 ⟨hwas, hc⟩)
  · rw [if_neg hc, h.chunkAt?, if_neg]
    intro hcoord
    rcases List.mem_map.1 hcoord with ⟨chunk, hchunk, rfl⟩
    exact hc ((hfar chunk).1 (hmem chunk hchunk)).2

/-! ## No chunk is lost -/

/-- Whatever fails to be written, what is let go is in its file, and what stays is as it was. There
is a failure only where a chunk that should have gone could not be written. No chunk is written
twice, so a function of the disk and the chunk fails in any pattern. All worlds that commands lead
to are intact (`Tidy.intact`). -/
theorem unload_loses_no_chunk (hfiles : w.files = some f) (hi : w.store.Intact)
    (hsave : Careful save) :
    (∀ c, ∃ r w' gone, w.unloadBy save c = (r, w') ∧ LetGo f w w' gone ∧
      (∀ chunk ∈ gone, chunk.coord = c) ∧
      (∀ e, r = .error e → gone = [] ∧ Stuck save f w' c e) ∧
      ∀ b, r = .ok b → gone.length = b.toNat ∧ w'.chunkAt? c = none) ∧
    ∀ (arrange : List Chunk → List Chunk) (center : ChunkCoord) (radius : Int),
      (∀ l, (arrange l).Perm l) →
      (∀ c chunk, w.chunkAt? c = some chunk → Measurable center radius c) →
      ∃ r w' gone, w.unloadOutsideBy save arrange center radius = .ok (r, w') ∧
        LetGo f w w' gone ∧ (∀ chunk ∈ gone, Far center radius chunk.coord) ∧
        (∀ e, r = .error e → ∃ c, Far center radius c ∧ Stuck save f w' c e) ∧
        ∀ n, r = .ok n → gone.length = n ∧
          ∀ c, w'.chunkAt? c = if Far center radius c then none else w.chunkAt? c := by
  constructor
  · intro c
    rcases (LetGo.start hfiles hi).unloadBy hsave c with ⟨r, w', gone, heq, h, hrest⟩
    rw [List.append_nil] at h
    exact ⟨r, w', gone, heq, h, hrest⟩
  intro arrange center radius hperm hmeas
  rcases unloadOutsideBy_eq save arrange hi hmeas with ⟨far, hnodup, hfar, heq⟩
  rcases (LetGo.start hfiles hi).unloadAllBy hsave ((arrange far).map Chunk.coord) with
    ⟨r, w', gone, hall, h, hasked, hstuck, hok⟩
  rw [List.append_nil] at h
  rw [hall] at heq
  -- what is gone was resident and asked for, so it is one of the far chunks
  have hmem : ∀ chunk ∈ gone, chunk ∈ far := by
    intro chunk hgone
    rcases List.mem_map.1 (hasked chunk hgone) with ⟨chunk', hmem, hcoord⟩
    have hmem := (hperm far).mem_iff.1 hmem
    have hwas := ((hfar chunk').1 hmem).1
    rw [hcoord, h.was chunk hgone] at hwas
    cases hwas
    exact hmem
  -- only a failed write leaves far chunks resident
  refine ⟨_, w', gone, heq, h, fun chunk hgone => ((hfar chunk).1 (hmem chunk hgone)).2, ?_⟩
  cases r with
  | error e =>
    refine ⟨fun e' he => ?_, nofun⟩
    cases he
    rcases hstuck e rfl with ⟨c, hc, hkept⟩
    rcases List.mem_map.1 hc with ⟨chunk, hchunk, rfl⟩
    exact ⟨_, ((hfar chunk).1 ((hperm far).mem_iff.1 hchunk)).2, hkept⟩
  | ok _ =>
    refine ⟨nofun, fun n hn => ?_⟩
    cases hn
    exact h.of_far hi hnodup hfar hmem fun chunk hin =>
      hok rfl _ (List.mem_map_of_mem ((hperm far).mem_iff.2 hin))

/-- A chunk that cannot be written stays where it is. With the files of the world it is let go, if
the centre is too far to the right. -/
theorem unload_loses_no_chunk_lone : ∃ (w : World) (chunk : Chunk),
    w.chunkAt? ⟨0, 0⟩ = some chunk ∧ chunk.isFresh = false ∧
      (∃ w', w.unloadBy (fun _ disk _ => (.error .noRoom, disk)) ⟨0, 0⟩ = (.error .noRoom, w') ∧
        w'.chunkAt? ⟨0, 0⟩ = some chunk) ∧
      ∃ r w', w.unloadOutside ⟨5, 0⟩ 1 = .ok (r, w') ∧
        ∀ n, r = .ok n → w'.chunkAt? ⟨0, 0⟩ = none := by
  rcases exists_generated (d := ⟨1, 1, 1⟩) (some "save") ⟨_, rfl⟩ with
    ⟨w, chunk, -, hfiles, hi, hone, -, -, hlife⟩
  have hc : w.chunkAt? ⟨0, 0⟩ = some chunk := hone ⟨0, 0⟩
  have hfresh : chunk.isFresh = false := congrArg Lifecycle.fresh hlife
  refine ⟨w, chunk, hc, hfresh, ?_, ?_⟩
  · rcases (unload_loses_no_chunk hfiles hi .never).1 ⟨0, 0⟩ with
      ⟨r, w', gone, heq, h, -, hkept, -⟩
    -- a disk that takes nothing
    have hfail : (w.unloadBy (fun _ disk _ => (.error .noRoom, disk)) ⟨0, 0⟩).1 =
        .error .noRoom := by
      unfold unloadBy persistBy
      simp only [hc, hfiles, hfresh]
      rfl
    have hr : r = .error .noRoom := (congrArg Prod.fst heq).symm.trans hfail
    subst hr
    refine ⟨w', heq, (h.chunkAt? _).trans ?_⟩
    rw [(hkept _ rfl).1]
    exact hc
  · -- the disk of the world takes the chunk
    have hmeas : ∀ c chunk', w.chunkAt? c = some chunk' → Measurable ⟨5, 0⟩ 1 c := by
      intro c chunk' hc'
      rw [hone] at hc'
      split at hc'
      · subst c
        decide
      · cases hc'
    rcases (unload_loses_no_chunk hfiles hi ChunkFiles.save_careful).2 w.store.bySeat ⟨5, 0⟩ 1
      w.store.bySeat_perm hmeas with ⟨r, w', gone, heq, -, -, -, hall⟩
    exact ⟨r, w', heq, fun n hn => ((hall n hn).2 _).trans (if_pos (by decide))⟩

end World

end VoxelWorld
