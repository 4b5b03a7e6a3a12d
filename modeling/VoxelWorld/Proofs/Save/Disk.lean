import VoxelWorld.Proofs.Codec
import VoxelWorld.Proofs.Save.Path
import VoxelWorld.Save.ChunkFiles

/-!
# Proofs.Save.Disk — chunks come back from a disk as they were written

* A disk `Serves` files if nothing stands in the way of any chunk.
* `save_spec` says that saving a chunk gives its file those bytes, changes the file of no other
  chunk, and leaves a disk that serves.
* `load_of_file` and `load_of_no_file` say what loading gives.
-/

namespace VoxelWorld

namespace Disk

variable {d d' : Disk} {path path' : String} {bytes : List UInt8} {s : Step} {steps : List Step}

/-! ## Files -/

/-- A file that was written is read, and the others as before. -/
@[simp] theorem get?_put :
    (d.put path bytes).get? path' = if path' = path then some bytes else d.get? path' := by
  unfold put get?
  rw [Std.HashMap.getElem?_insert]
  by_cases h : path' = path
  · simp [h]
  · rw [if_neg (by simpa using Ne.symm h), if_neg h]

/-- A file that was taken away is not there. -/
@[simp] theorem get?_erase :
    (d.erase path).get? path' = if path' = path then none else d.get? path' := by
  unfold erase get?
  rw [Std.HashMap.getElem?_erase]
  by_cases h : path' = path
  · simp [h]
  · rw [if_neg (by simpa using Ne.symm h), if_neg h]

theorem get?_empty : empty.get? path = none := Std.HashMap.getElem?_empty

/-- A disk has the files that can be read. -/
theorem contains_eq : d.contains path = (d.get? path).isSome := by
  unfold contains get?
  exact Std.HashMap.isSome_getElem?_eq_contains.symm

/-- A path is reached if no file stands where it needs a directory. -/
theorem reach_eq_ok : d.reach path = .ok () ↔
    Path.isNameable path = true ∧ ∀ dir ∈ Path.ancestors path, d.get? (Path.direct dir) = none := by
  unfold reach isBlocked
  cases Path.isNameable path with
  | false => simp
  | true => simp [contains_eq]

/-- With no file on the disk, nothing stands in the way. -/
theorem reach_empty (h : Path.isNameable path = true) : empty.reach path = .ok () :=
  reach_eq_ok.2 ⟨h, fun _ _ => get?_empty⟩

/-- A path stays in reach as long as no file comes in that is as short as the way to it. -/
theorem reach_of_get? (h : d.reach path = .ok ())
    (hget : ∀ dir, Path.depth dir < Path.depth path → d.get? dir = none → d'.get? dir = none) :
    d'.reach path = .ok () := by
  rw [reach_eq_ok] at h ⊢
  refine ⟨h.1, fun dir hdir => ?_⟩
  exact hget _ (Path.depth_direct_lt hdir) (h.2 dir hdir)

/-! ## Steps -/

/-- One step, and then the rest. -/
theorem run_cons {rest : List Step} (h : d.step s = .ok d') :
    d.run (s :: rest) = d'.run rest := by
  rw [run, h]

/-- Directories are made where no file stands. -/
theorem step_makeDirs (h : d.reach path = .ok ()) (hfree : d.get? path = none) :
    d.step (.makeDirs path) = .ok d := by
  simp only [step, h, contains_eq, hfree]
  rfl

/-- A file is created empty. -/
theorem step_create (h : d.reach path = .ok ()) : d.step (.create path) = .ok (d.put path []) := by
  simp only [step, h]
  rfl

/-- Bytes go to the end of a file. -/
theorem step_append {old : List UInt8} (h : d.get? path = some old) :
    d.step (.append path bytes) = .ok (d.put path (old ++ bytes)) := by
  simp only [step, h]

/-- A file that is moved takes the place of the other one. -/
theorem step_rename (h : d.get? path = some bytes) (hreach : d.reach path' = .ok ()) :
    d.step (.rename path path') = .ok ((d.erase path).put path' bytes) := by
  simp only [step, h, hreach]
  rfl

/-- The files that a step changes. -/
def Step.targets : Step → List String
  | .makeDirs _ => []
  | .create path => [path]
  | .append path _ => [path]
  | .rename source target => [source, target]

/-- What comes after a path was reached is all that is left. -/
theorem of_reach {α : Type} {m : Except IoError α} {a : α}
    (h : (d.reach path >>= fun _ => m) = .ok a) : m = .ok a := by
  cases hreach : d.reach path with
  | error e =>
    rw [hreach] at h
    cases h
  | ok _ =>
    rw [hreach] at h
    exact h

/-- A step changes its own files only. -/
theorem get?_step (h : d.step s = .ok d') (hpath : path ∉ s.targets) :
    d'.get? path = d.get? path := by
  -- each step writes its own targets, if it does anything
  cases s with
  | makeDirs dir =>
    have h := of_reach h
    split at h <;> cases h
    rfl
  | create target =>
    cases of_reach h
    exact get?_put.trans (if_neg fun heq => hpath (List.mem_singleton.2 heq))
  | append target bytes =>
    simp only [step] at h
    split at h <;> cases h
    exact get?_put.trans (if_neg fun heq => hpath (List.mem_singleton.2 heq))
  | rename source target =>
    simp only [step] at h
    split at h
    · cases h
    · cases of_reach h
      have hne : path ≠ source ∧ path ≠ target := by
        simpa [Step.targets] using hpath
      rw [get?_put, if_neg hne.2, get?_erase, if_neg hne.1]

/-- Whether or not one of them fails, steps change their own files only. -/
theorem get?_run (hpath : ∀ s ∈ steps, path ∉ s.targets) :
    (d.run steps).2.get? path = d.get? path := by
  induction steps generalizing d with
  | nil => rfl
  | cons s rest ih =>
    unfold run
    cases hstep : d.step s with
    | error e => rfl
    | ok d₁ =>
      rw [← get?_step hstep (hpath s List.mem_cons_self)]
      exact ih fun s' hs' => hpath s' (List.mem_cons_of_mem _ hs')

/-- Where all steps succeed, the first one does. -/
theorem exists_step_of_run (h : d.run (s :: steps) = (.ok (), d')) :
    ∃ d₁, d.step s = .ok d₁ ∧ d₁.run steps = (.ok (), d') := by
  unfold run at h
  cases hstep : d.step s with
  | error e =>
    rw [hstep] at h
    cases h
  | ok d₁ =>
    rw [hstep] at h
    exact ⟨d₁, rfl, h⟩

end Disk

namespace ChunkFiles

variable {f : ChunkFiles} {d d' : Disk} {c : ChunkCoord} {chunk : Chunk} {dims : Dims}

/-- Nothing stands in the way of the file of any chunk. -/
structure Serves (f : ChunkFiles) (d : Disk) : Prop where
  file : ∀ c : ChunkCoord, c.Fits → d.reach (f.path c) = .ok ()
  temporary : ∀ c : ChunkCoord, c.Fits → d.reach (Path.temporaryFor f.root c) = .ok ()
  dir : ∀ c : ChunkCoord, c.Fits → d.reach (Path.dirFor f.root c) = .ok ()
  noFile : ∀ c : ChunkCoord, c.Fits → d.get? (Path.dirFor f.root c) = none

/-- A disk with no new files but those in the directories of chunks serves as before. -/
theorem Serves.of_get? (h : Serves f d)
    (hget : ∀ path, Path.depth path < (Path.base f.root).count '/' + 2 → d.get? path = none →
      d'.get? path = none) : Serves f d' where
  -- whatever has to be there for a chunk lies nearer to the root than its file
  file c hc := by
    refine Disk.reach_of_get? (h.file c hc) fun dir hdir => hget dir ?_
    rw [← Path.depth_fileFor (c := c)]
    exact hdir
  temporary c hc := by
    refine Disk.reach_of_get? (h.temporary c hc) fun dir hdir => hget dir ?_
    rw [← Path.depth_temporaryFor (c := c)]
    exact hdir
  dir c hc := by
    refine Disk.reach_of_get? (h.dir c hc) fun dir hdir => hget dir ?_
    have hdepth : Path.depth (Path.dirFor f.root c) = _ := Path.depth_dirFor
    omega
  noFile c hc := by
    refine hget _ ?_ (h.noFile c hc)
    rw [Path.depth_dirFor]
    omega

/-- A file at the depth of chunks stands in no way: directories lie above it. -/
theorem Serves.put (h : Serves f d) {path : String} (bytes : List UInt8)
    (hdepth : Path.depth path = (Path.base f.root).count '/' + 2) :
    Serves f (d.put path bytes) := by
  refine h.of_get? fun path' hlt hnone => ?_
  rw [Disk.get?_put, if_neg, hnone]
  rintro rfl
  omega

/-- A file less is in nobody's way. -/
theorem Serves.erase (h : Serves f d) (path : String) : Serves f (d.erase path) := by
  refine h.of_get? fun path' _ hnone => ?_
  rw [Disk.get?_erase]
  split
  · rfl
  · exact hnone

/-- A disk without files serves below any short root. -/
theorem serves_empty (hnull : '\x00' ∉ f.root.toList) (hroot : f.root.utf8ByteSize ≤ 200) :
    Serves f .empty where
  file _ hc := Disk.reach_empty (Path.isNameable_fileFor hnull hroot hc.1 hc.2)
  temporary _ hc := Disk.reach_empty (Path.isNameable_temporaryFor hnull hroot hc.1 hc.2)
  dir _ hc := Disk.reach_empty (Path.isNameable_dirFor hnull hroot hc.1 hc.2)
  noFile _ _ := Disk.get?_empty

/-! ## Saving -/

/-- Saving one chunk leaves the files of the others as they are, whatever comes of it. -/
theorem get?_save (hne : c ≠ chunk.coord) :
    (f.save d chunk).2.get? (f.path c) = d.get? (f.path c) := by
  -- another chunk has another file, and its file is not the temporary one
  have hfile : f.path c ≠ f.path chunk.coord := fun heq => hne (Path.fileFor_inj heq)
  have htemp : f.path c ≠ Path.temporaryFor f.root chunk.coord :=
    fun heq => hne (Path.eq_of_fileFor_eq_temporaryFor heq)
  unfold save
  apply Disk.get?_run
  unfold saveSteps
  simp [Disk.Step.targets, hfile, htemp]

/-- A save that succeeds has stored the chunk, whatever the disk was like. -/
theorem stored_of_save (h : f.save d chunk = (.ok (), d')) :
    d'.get? (f.path chunk.coord) = some chunk.toBytes := by
  rcases Disk.exists_step_of_run h with ⟨d₁, -, h⟩
  rcases Disk.exists_step_of_run h with ⟨d₂, hcreate, h⟩
  rcases Disk.exists_step_of_run h with ⟨d₃, happend, h⟩
  rcases Disk.exists_step_of_run h with ⟨d₄, hrename, h⟩
  cases h
  cases Disk.of_reach hcreate
  have hempty : (d₁.put (Path.temporaryFor f.root chunk.coord) []).get?
      (Path.temporaryFor f.root chunk.coord) = some [] := by simp
  rw [Disk.step_append hempty] at happend
  cases happend
  simp only [Disk.step, Disk.get?_put, if_true] at hrename
  cases Disk.of_reach hrename
  simp

/-- A save gets through, leaves the file of its chunk with the bytes of the chunk, and changes no
file of another one. -/
theorem save_spec (h : Serves f d) (hc : chunk.coord.Fits) :
    ∃ d', f.save d chunk = (.ok (), d') ∧ Serves f d' ∧
      d'.get? (f.path chunk.coord) = some chunk.toBytes ∧
      ∀ c, c ≠ chunk.coord → d'.get? (f.path c) = d.get? (f.path c) := by
  let temporary := Path.temporaryFor f.root chunk.coord
  -- the disk after the file was created, written and renamed
  let d₁ := d.put temporary []
  let d₂ := d₁.put temporary ([] ++ chunk.toBytes)
  let d₃ := (d₂.erase temporary).put (f.path chunk.coord) chunk.toBytes
  have h₁ : Serves f d₁ := h.put [] Path.depth_temporaryFor
  have h₂ : Serves f d₂ := h₁.put _ Path.depth_temporaryFor
  have h₃ : Serves f d₃ := (h₂.erase temporary).put _ Path.depth_fileFor
  have hempty : d₁.get? temporary = some [] := by simp [d₁]
  have hwritten : d₂.get? temporary = some chunk.toBytes := by simp [d₂]
  have hrun : f.save d chunk = (.ok (), d₃) := by
    unfold save saveSteps
    rw [Disk.run_cons (Disk.step_makeDirs (h.dir _ hc) (h.noFile _ hc)),
      Disk.run_cons (Disk.step_create (h.temporary _ hc)),
      Disk.run_cons (Disk.step_append hempty),
      Disk.run_cons (Disk.step_rename hwritten (h₂.file _ hc))]
    rfl
  refine ⟨d₃, hrun, h₃, stored_of_save hrun, fun c hne => ?_⟩
  have hother := get?_save (f := f) (d := d) hne
  rwa [hrun] at hother

/-! ## Loading -/

/-- A disk that serves reads what it has. -/
theorem read_of_serves (h : Serves f d) (hc : c.Fits) :
    d.read (f.path c) = .ok (d.get? (f.path c)) := by
  unfold Disk.read
  rw [h.file c hc]
  rfl

/-- Only the file of the chunk counts. -/
theorem load_congr (h : Serves f d) (h' : Serves f d') (hc : c.Fits)
    (hget : d'.get? (f.path c) = d.get? (f.path c)) : f.load d' c dims = f.load d c dims := by
  unfold load
  rw [read_of_serves h hc, read_of_serves h' hc, hget]

/-- Without a file there is nothing to load, and that is no error. -/
theorem load_of_no_file (h : Serves f d) (hc : c.Fits) (hnone : d.get? (f.path c) = none) :
    f.load d c dims = .ok (.ok none) := by
  unfold load
  rw [read_of_serves h hc, hnone]
  rfl

/-- Whatever lies on the disk, a chunk that is loaded is the one that was asked for, and is neither
fresh nor disposed. -/
theorem load_ensures {faulty : Prop} (hnew : ∀ coord e, Chunk.new coord dims = .error e → faulty) :
    Ensures faulty (f.load d c dims) fun r => ∀ chunk, r = .ok (some chunk) →
      chunk.coord = c ∧ chunk.dims = dims ∧ chunk.isFresh = false ∧ chunk.isDisposed = false ∧
        ∃ new, Chunk.new c dims = .ok new := by
  unfold load
  split
  · exact Ensures.pure fun chunk h => by cases h
  · exact Ensures.pure fun chunk h => by cases h
  · apply (Chunk.read?_ensures hnew).bind
    intro r hr
    -- the bytes may be no chunk, or one of another place
    cases r with
    | none => exact Ensures.pure fun chunk h => by cases h
    | some found =>
      rcases found with ⟨chunk, rest⟩
      refine Ensures.ite (fun hc => Ensures.pure fun chunk' h => ?_) fun _ =>
        Ensures.pure fun chunk' h => by cases h
      cases h
      rcases hr _ _ rfl with ⟨hdims, hfresh, hlive, hnew⟩
      rw [hc] at hnew
      exact ⟨hc, hdims, hfresh, hlive, hnew⟩

/-- A chunk that was written comes back. -/
theorem load_of_file (h : Serves f d) (hc : chunk.coord.Fits)
    (hsome : d.get? (f.path chunk.coord) = some chunk.toBytes)
    (hnew : ∃ new, Chunk.new chunk.coord chunk.dims = .ok new) :
    f.load d chunk.coord chunk.dims = .ok (.ok (some chunk.saved)) := by
  have hread : Chunk.read? chunk.dims chunk.toBytes = .ok (some (chunk.saved, [])) := by
    have happend : Chunk.read? chunk.dims (chunk.toBytes ++ []) = _ :=
      Chunk.read?_toBytes hc.1 hc.2 hnew
    rwa [List.append_nil] at happend
  unfold load
  rw [read_of_serves h hc, hsome]
  simp only [hread]
  exact if_pos rfl

end ChunkFiles

end VoxelWorld
