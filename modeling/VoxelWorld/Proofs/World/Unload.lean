import VoxelWorld.Proofs.World.Archive
import VoxelWorld.World.Unload

/-!
# Proofs.World.Unload — saving chunks and letting them go

* `Persisted` is what writing a chunk does on a disk that serves: the file of the chunk holds it,
  and the files of the others are as they were. Nothing is written of a fresh chunk.
* `Retired` is what letting a chunk go does.
* Both keep the map of blocks: the chunk that would come in again is the one that was written
  (`Persisted.brings_self`). So unloading and saving keep it (`unload_archived`,
  `unloadOutsideBy_archived`, `saveAll_archived`), in whatever order chunks are unloaded.
-/

namespace VoxelWorld.World

variable {w w' w'' : World} {f : ChunkFiles} {c c' : ChunkCoord} {chunk chunk' : Chunk}
  {m : Pos → BlockId}

/-- The world saves its chunks, and nothing stands in the way. -/
structure Serviced (f : ChunkFiles) (w : World) : Prop where
  files : w.files = some f
  serves : f.Serves w.disk

/-- Where files and disk are the same they serve as before. -/
theorem Serviced.base (h : Serviced f w) (hbase : SameBase w w') : Serviced f w' := by
  constructor
  · exact hbase.files.trans h.files
  · rw [hbase.disk]
    exact h.serves

/-- The worlds have the same rules. -/
structure SameSetup (w w' : World) : Prop where
  config : w'.config = w.config
  generators : w'.generators = w.generators

namespace SameSetup

theorem refl : SameSetup w w := ⟨rfl, rfl⟩

theorem trans (h : SameSetup w w') (h' : SameSetup w' w'') : SameSetup w w'' :=
  ⟨h'.config.trans h.config, h'.generators.trans h.generators⟩

theorem dims (h : SameSetup w w') : w'.dims = w.dims := by
  show w'.config.chunk = w.config.chunk
  rw [h.config]

end SameSetup

theorem SameBase.setup (h : SameBase w w') : SameSetup w w' := ⟨h.config, h.generators⟩

/-! ## What comes in -/

/-- Only the file of the chunk counts. -/
theorem brings_congr (h : Serviced f w) (h' : Serviced f w') (hdims : w'.dims = w.dims)
    (hfits : c.Fits) (hget : w'.disk.get? (f.path c) = w.disk.get? (f.path c)) :
    w'.Brings c chunk ↔ w.Brings c chunk := by
  have hload : f.load w'.disk c w'.dims = f.load w.disk c w.dims := by
    rw [hdims]
    exact ChunkFiles.load_congr h.serves h'.serves hfits hget
  unfold Brings
  rw [saved?_congr h.files h'.files hload, hdims]

/-- The chunk that comes in is the one that was written. -/
theorem brings_of_file (h : Serviced f w) (hfiled : Filed w c chunk)
    (hget : w.disk.get? (f.path c) = some chunk.toBytes) :
    w.Brings c chunk' ↔ chunk' = chunk.saved := by
  have hload : f.load w.disk c w.dims = .ok (.ok (some chunk.saved)) := by
    have hfits := hfiled.fits
    have hnew := hfiled.storable
    rw [← hfiled.coord, ← hfiled.dims] at hnew ⊢
    rw [← hfiled.coord] at hget hfits
    exact ChunkFiles.load_of_file h.serves hfits hget hnew
  have hsaved := saved?_of_load h.files hload
  unfold Brings
  rw [hsaved]
  constructor
  · rintro (heq | ⟨hnone, -⟩)
    · exact (Option.some.inj (Except.ok.inj heq)).symm
    · cases hnone
  · rintro rfl
    exact .inl rfl

/-! ## Writing -/

/-- What writing a chunk does. -/
structure Persisted (f : ChunkFiles) (w w' : World) (c : ChunkCoord) (chunk : Chunk) : Prop where
  rest : w' = { w with disk := w'.disk }
  serves : f.Serves w'.disk
  other : ∀ c', c' ≠ c → w'.disk.get? (f.path c') = w.disk.get? (f.path c')
  own : chunk.isFresh = false → w'.disk.get? (f.path c) = some chunk.toBytes
  fresh : chunk.isFresh = true → w' = w

/-- A generated chunk is written under its name, a fresh one not at all. -/
theorem persist_spec (h : Serviced f w) (hfiled : Filed w c chunk) :
    ∃ b w', w.persist chunk = (.ok b, w') ∧ Persisted f w w' c chunk := by
  have hf := h.files
  unfold persist persistBy
  simp only [hf]
  -- fresh chunks are not written
  cases hfresh : chunk.isFresh with
  | true =>
    refine ⟨false, w, rfl, rfl, h.serves, fun _ _ => rfl, fun hf => ?_, fun _ => rfl⟩
    rw [hfresh] at hf
    cases hf
  | false =>
    have hfits := hfiled.fits
    rw [← hfiled.coord] at hfits
    rcases ChunkFiles.save_spec h.serves hfits with ⟨d, hsave, hserves, hown, hother⟩
    rw [hfiled.coord] at hown hother
    simp only [hsave]
    refine ⟨true, _, rfl, ⟨by rw [hf], hserves, hother, fun _ => hown, fun hf => ?_⟩⟩
    rw [hfresh] at hf
    cases hf

namespace Persisted

variable (hp : Persisted f w w' c chunk)

include hp

theorem chunkAt? : w'.chunkAt? c' = w.chunkAt? c' := by
  rw [hp.rest]
  rfl

theorem store : w'.store = w.store := by
  rw [hp.rest]

theorem setup : SameSetup w w' := by
  rw [hp.rest]
  exact ⟨rfl, rfl⟩

theorem serviced (h : Serviced f w) : Serviced f w' := by
  refine ⟨?_, hp.serves⟩
  rw [hp.rest]
  exact h.files

/-- What was written comes in again. -/
theorem brings_self (h : Serviced f w) (hfiled : Filed w c chunk) (hfresh : chunk.isFresh = false) :
    w'.Brings c chunk' ↔ chunk' = chunk.saved :=
  brings_of_file (hp.serviced h) (hfiled.base hp.setup.dims) (hp.own hfresh)

/-- The files say what the blocks are, so nothing is lost by writing them. -/
theorem archived (h : Serviced f w) (harch : w.Archived m) (hc : w.chunkAt? c = some chunk) :
    w'.Archived m := by
  have hdims := hp.setup.dims
  refine ⟨?_, ?_, fun c₁ chunk₁ hc₁ => ?_, fun c₁ chunk₁ hfits hgen hbrings => ?_⟩
  · rw [hdims]
    exact harch.valid
  · rw [hp.store]
    exact harch.intact
  · rw [hp.chunkAt?] at hc₁
    rw [hp.setup.generators]
    rcases harch.resident c₁ chunk₁ hc₁ with ⟨hfiled, hagrees⟩
    exact ⟨hfiled.base hdims, hagrees⟩
  · rw [hp.setup.generators]
    unfold Generated at hgen
    rw [hp.chunkAt?] at hgen
    refine harch.absent c₁ chunk₁ hfits hgen ?_
    -- a chunk that was written is generated, and only its file is another one
    cases hfresh : chunk.isFresh with
    | true =>
      rw [hp.fresh hfresh] at hbrings
      exact hbrings
    | false =>
      have hne : c₁ ≠ c := by
        rintro rfl
        exact hgen ⟨chunk, hc, hfresh⟩
      exact (brings_congr h (hp.serviced h) hdims hfits (hp.other c₁ hne)).1 hbrings

end Persisted

/-! ## Letting go -/

/-- The chunk of a coordinate is gone, and the others are as they were. -/
structure Retired (w w' : World) (c : ChunkCoord) : Prop extends SameBase w w' where
  intact : w'.store.Intact
  chunkAt? : ∀ c', w'.chunkAt? c' = if c' = c then none else w.chunkAt? c'

/-- A resident chunk is taken out of its slot and disposed. -/
theorem retire_eq (hc : w.chunkAt? c = some chunk) (saved : Bool) :
    ∃ id store, w.store.idOf? c = some id ∧ ChunkStore.Emptied w.store chunk id store ∧
      w.retire c saved = (true, { w with
        store
        gpu := (chunk.life.dispose w.gpu).2
        stats :=
          { w.stats with
            unloaded := w.stats.unloaded + 1
            saved := w.stats.saved + saved.toNat }
        retired := (id, (chunk.life.dispose w.gpu).1) :: w.retired }) := by
  rcases chunkAt?_eq_some.1 hc with ⟨id, hid, hget⟩
  rcases ChunkStore.exists_emptied hget with ⟨store, hremove, hemptied⟩
  refine ⟨id, store, hid, hemptied, ?_⟩
  unfold retire
  simp only [hid, hremove]

/-- A chunk that is let go leaves the others where they are. -/
theorem retire_spec (hi : w.store.Intact) (hc : w.chunkAt? c = some chunk) (saved : Bool) :
    ∃ w', w.retire c saved = (true, w') ∧ Retired w w' c := by
  rcases retire_eq hc saved with ⟨id, store, -, hemptied, hretire⟩
  have hcoord : chunk.coord = c := hi.coord hc
  subst hcoord
  exact ⟨_, hretire, ⟨rfl, rfl, rfl, rfl, rfl, fun hw => hw⟩, hemptied.intact hi,
    fun _ => hemptied.getAt? hi⟩

/-- The map is kept if what would come in again follows it. -/
theorem Retired.archived (hr : Retired w w' c) (h : w.Archived m)
    (hback : ∀ chunk, c.Fits → w.Brings c chunk → chunk.Agrees w.generators m) :
    w'.Archived m where
  valid := by
    rw [hr.dims]
    exact h.valid
  intact := hr.intact
  resident c₁ chunk₁ hc₁ := by
    rw [hr.chunkAt?] at hc₁
    rw [hr.generators]
    split at hc₁
    · cases hc₁
    · rcases h.resident c₁ chunk₁ hc₁ with ⟨hfiled, hagrees⟩
      exact ⟨hfiled.base hr.dims, hagrees⟩
  absent c₁ chunk₁ hfits hgen hbrings := by
    rw [hr.generators]
    have hbrings := hr.brings.1 hbrings
    -- the chunk that has gone is now the one that would come in
    by_cases hcc : c₁ = c
    · subst hcc
      exact hback chunk₁ hfits hbrings
    · refine h.absent c₁ chunk₁ hfits ?_ hbrings
      unfold Generated at hgen ⊢
      rwa [hr.chunkAt?, if_neg hcc] at hgen

/-! ## Unloading and saving -/

/-- A chunk is written before it is let go, and stays if that fails. -/
theorem unload_eq : w.unload c = match w.chunkAt? c with
    | none => (.ok false, w)
    | some chunk =>
      match w.persist chunk with
      | (.error e, w) => (.error e, w)
      | (.ok saved, w) => (.ok (w.retire c saved).1, (w.retire c saved).2) := rfl

/-- A resident chunk is written, and then it is gone. -/
theorem unload_resident (h : Serviced f w) (harch : w.Archived m)
    (hc : w.chunkAt? c = some chunk) : ∃ w₁ w', w.unload c = (.ok true, w') ∧
      Persisted f w w₁ c chunk ∧ Retired w₁ w' c := by
  have hfiled := (harch.resident c chunk hc).1
  rcases persist_spec h hfiled with ⟨b, w₁, hpersist, hp⟩
  have hc₁ : w₁.chunkAt? c = some chunk := hp.chunkAt?.trans hc
  rcases retire_spec (hp.archived h harch hc).intact hc₁ b with ⟨w', hretire, hr⟩
  refine ⟨w₁, w', ?_, hp, hr⟩
  rw [unload_eq]
  simp only [hc, hpersist, hretire]

/-- Unloading keeps every block in the world or in its files. -/
theorem unload_archived (h : Serviced f w) (harch : w.Archived m) :
    ∃ b w', w.unload c = (.ok b, w') ∧ w'.Archived m ∧ Serviced f w' ∧ SameSetup w w' := by
  cases hc : w.chunkAt? c with
  | none =>
    refine ⟨false, w, ?_, harch, h, SameSetup.refl⟩
    rw [unload_eq, hc]
  | some chunk =>
    rcases unload_resident h harch hc with ⟨w₁, w', hunload, hp, hr⟩
    have harch₁ := hp.archived h harch hc
    refine ⟨true, w', hunload, hr.archived harch₁ fun chunk₁ hfits hbrings => ?_,
      (hp.serviced h).base hr.toSameBase, hp.setup.trans hr.setup⟩
    rcases harch.resident c chunk hc with ⟨hfiled, hagrees⟩
    cases hfresh : chunk.isFresh with
    | true =>
      -- nothing was written, and what the disk has is as good as before
      refine harch₁.absent c chunk₁ hfits ?_ hbrings
      rintro ⟨chunk₀, hc₀, hf₀⟩
      rw [hp.chunkAt?, hc] at hc₀
      cases hc₀
      rw [hfresh] at hf₀
      cases hf₀
    | false =>
      rw [(hp.brings_self h hfiled hfresh).1 hbrings]
      exact (hagrees.shows hfresh).saved

/-- What one unloading keeps, any number of them keeps. -/
theorem unloadAll_archived {cs : List ChunkCoord} (h : Serviced f w) (harch : w.Archived m) :
    ∃ w', w.unloadAllBy ChunkFiles.save cs = (.ok (), w') ∧ w'.Archived m ∧ Serviced f w' ∧
      SameSetup w w' := by
  induction cs generalizing w with
  | nil => exact ⟨w, rfl, harch, h, SameSetup.refl⟩
  | cons c cs ih =>
    rcases unload_archived (c := c) h harch with ⟨b, w₁, hunload, harch₁, h₁, hsetup₁⟩
    rcases ih h₁ harch₁ with ⟨w', hall, harch', h', hsetup'⟩
    refine ⟨w', ?_, harch', h', hsetup₁.trans hsetup'⟩
    have hfirst : w.unloadBy ChunkFiles.save c = (.ok b, w₁) := hunload
    unfold unloadAllBy
    simp only [hfirst]
    exact hall

/-- The order plays no part. -/
theorem unloadOutsideBy_archived {arrange : List Chunk → List Chunk} {center : ChunkCoord}
    {radius : Int} (h : Serviced f w) (harch : w.Archived m) :
    Ensures True (w.unloadOutsideBy ChunkFiles.save arrange center radius) fun r =>
      r.2.Archived m ∧ Serviced f r.2 ∧ SameSetup w r.2 := by
  unfold unloadOutsideBy
  refine Ensures.bind (P := fun _ => True) (Ensures.intro (fun _ _ => trivial) fun _ _ => trivial)
    fun far _ => ?_
  rcases unloadAll_archived h harch with ⟨w', hall, harch', h', hsetup⟩
  rw [hall]
  exact Ensures.pure ⟨harch', h', hsetup⟩

/-- Saving resident chunks one by one. -/
theorem persistAll_archived {chunks : List Chunk} {n : Nat} (h : Serviced f w)
    (harch : w.Archived m) (hin : ∀ chunk ∈ chunks, w.chunkAt? chunk.coord = some chunk) :
    ∃ k w', w.persistAll n chunks = (.ok k, w') ∧ w'.Archived m ∧ Serviced f w' ∧
      SameSetup w w' := by
  induction chunks generalizing w n with
  | nil => exact ⟨n, w, rfl, harch, h, SameSetup.refl⟩
  | cons chunk chunks ih =>
    have hc := hin chunk List.mem_cons_self
    rcases persist_spec h (harch.resident _ _ hc).1 with ⟨b, w₁, hpersist, hp⟩
    have hin₁ : ∀ chunk ∈ chunks, w₁.chunkAt? chunk.coord = some chunk := by
      intro chunk' hmem
      rw [hp.chunkAt?]
      exact hin chunk' (List.mem_cons_of_mem _ hmem)
    rcases ih (n := n + b.toNat) (hp.serviced h) (hp.archived h harch hc) hin₁ with
      ⟨k, w', hall, harch', h', hsetup⟩
    refine ⟨k, w', ?_, harch', h', hp.setup.trans hsetup⟩
    unfold persistAll
    simp only [hpersist]
    exact hall

/-- Saving all chunks keeps them in both. -/
theorem saveAll_archived (h : Serviced f w) (harch : w.Archived m) :
    ∃ n w', w.saveAll = (.ok n, w') ∧ w'.Archived m ∧ Serviced f w' ∧ SameSetup w w' := by
  have hin : ∀ chunk ∈ w.store.chunks, w.chunkAt? chunk.coord = some chunk :=
    fun chunk hmem => harch.intact.mem_chunks.1 hmem
  rcases persistAll_archived (n := 0) h harch hin with ⟨n, w', hall, harch', h', hsetup⟩
  unfold saveAll
  simp only [hall]
  -- the count of saved chunks plays no part
  have hgrew := grew_stats harch'.intact { w'.stats with saved := w'.stats.saved + n }
  exact ⟨n, _, rfl, harch'.grew hgrew, h'.base hgrew.toSameBase, hsetup.trans hgrew.setup⟩

end VoxelWorld.World
