import VoxelWorld.Proofs.Chunk
import VoxelWorld.Proofs.Save.Disk

/-!
# Proofs.Save.Interrupted — a save that does not come to its end

* `Disk.Underway` are the disks that steps pass through, with files written in part.
* `ChunkFiles.Interrupted` are the disks that a save leaves when it fails, or stops, before it
  moves the file into place.
* The temporary file of a chunk is the file of a chunk exactly where `z` is written `tmp`
  (`Path.fileFor_eq_temporaryFor`). Apart from the file of such a chunk, which its own save
  empties (`Interrupted.loses_chunk`), a save leaves the files of all chunks as they are until
  it moves the new one into place (`Interrupted.keeps_chunks`).
-/

namespace VoxelWorld

/-! ## The name of a temporary file -/

/-- The number that is written `tmp`. -/
theorem Base36.chars_eq_tmp {v : Int} : chars v = ['t', 'm', 'p'] ↔ v = 38401 := by
  have htmp : chars 38401 = ['t', 'm', 'p'] := by
    unfold chars magnitude
    rw [if_neg (by decide), if_neg (by decide), digitsReversed_pos (by decide),
      digitsReversed_pos (by decide), digitsReversed_pos (by decide)]
    exact congrArg (fun l => (digit 25 :: digit 22 :: digit 29 :: l).reverse) digitsReversed_zero
  constructor
  · intro h
    exact chars_inj (h.trans htmp.symm)
  · rintro rfl
    exact htmp

/-- A chunk is kept where one is written to for a while only if they are the same chunk and it is
called `tmp` along `z`. -/
theorem Path.fileFor_eq_temporaryFor {root : String} {c c' : ChunkCoord} :
    fileFor root c = temporaryFor root c' ↔ c = c' ∧ c.z = 38401 := by
  constructor
  · intro h
    have heq := eq_of_fileFor_eq_temporaryFor h
    subst heq
    refine ⟨rfl, Base36.chars_eq_tmp.1 ?_⟩
    have hlist := congrArg String.toList h
    rw [toList_fileFor, toList_temporaryFor] at hlist
    unfold inDir at hlist
    simpa using hlist
  · rintro ⟨rfl, hz⟩
    apply String.toList_injective
    rw [toList_fileFor, toList_temporaryFor, Base36.chars_eq_tmp.2 hz]

/-! ## Steps on the way -/

namespace Disk

variable {d d' : Disk} {steps : List Step} {path : String}

/-- The disks that steps pass through: some steps are done, and the bytes of the next one may be
written in part. -/
inductive Underway : Disk → List Step → Disk → Prop
  | here {d : Disk} {steps : List Step} : Underway d steps d
  | partly {d : Disk} {path : String} {bytes old : List UInt8} {rest : List Step} (n : Nat) :
      d.get? path = some old →
      Underway d (.append path bytes :: rest) (d.put path (old ++ bytes.take n))
  | after {d d₁ d' : Disk} {s : Step} {rest : List Step} :
      d.step s = .ok d₁ → Underway d₁ rest d' → Underway d (s :: rest) d'

/-- Steps on the way leave the files of others as they are. -/
theorem Underway.get?_eq (h : Underway d steps d') (hpath : ∀ s ∈ steps, path ∉ s.targets) :
    d'.get? path = d.get? path := by
  induction h with
  | here => rfl
  | partly n hold =>
    refine get?_put.trans (if_neg fun heq => ?_)
    exact hpath _ List.mem_cons_self (List.mem_singleton.2 heq)
  | after hstep _ ih =>
    rw [ih fun s hs => hpath s (List.mem_cons_of_mem _ hs),
      get?_step hstep (hpath _ List.mem_cons_self)]

/-- Where steps fail, they stop on the way to the last one. -/
theorem underway_of_error {e : IoError} {last : Step}
    (h : d.run (steps ++ [last]) = (.error e, d')) : Underway d steps d' := by
  induction steps generalizing d with
  | nil =>
    rw [List.nil_append, run] at h
    split at h
    · cases h
      exact .here
    · cases h
  | cons s rest ih =>
    rw [List.cons_append, run] at h
    split at h
    · cases h
      exact .here
    · rename_i d₁ hstep
      exact .after hstep (ih h)

end Disk

namespace ChunkFiles

variable {f : ChunkFiles} {d d' : Disk} {c : ChunkCoord} {chunk : Chunk}

/-- The steps of a save before the last one, which moves the file into place. -/
def stagingSteps (f : ChunkFiles) (chunk : Chunk) : List Disk.Step :=
  let temporary := Path.temporaryFor f.root chunk.coord
  [.makeDirs (Path.dirFor f.root chunk.coord), .create temporary,
    .append temporary chunk.toBytes]

/-- A save is its staging and one move. -/
theorem saveSteps_eq : f.saveSteps chunk = f.stagingSteps chunk ++
    [.rename (Path.temporaryFor f.root chunk.coord) (f.path chunk.coord)] := rfl

/-- A save came to no end: it failed, or it was stopped before it moved the file into place. -/
inductive Interrupted (f : ChunkFiles) (d : Disk) (chunk : Chunk) : Disk → Prop
  | failed {e : IoError} {d' : Disk} : f.save d chunk = (.error e, d') → Interrupted f d chunk d'
  | stopped {d' : Disk} : d.Underway (f.stagingSteps chunk) d' → Interrupted f d chunk d'

/-- A save that failed has not got beyond its staging. -/
theorem Interrupted.underway (h : Interrupted f d chunk d') :
    d.Underway (f.stagingSteps chunk) d' := by
  cases h with
  | failed h =>
    unfold save at h
    rw [saveSteps_eq] at h
    exact Disk.underway_of_error h
  | stopped h => exact h

/-- Until the new file is moved into place no stored chunk is touched, unless the chunk that is
saved is called `tmp` along `z` and is stored itself. -/
theorem Interrupted.keeps_chunks (h : Interrupted f d chunk d')
    (hc : c ≠ chunk.coord ∨ chunk.coord.z ≠ 38401) :
    d'.get? (f.path c) = d.get? (f.path c) := by
  have htemporary : f.path c ≠ Path.temporaryFor f.root chunk.coord := by
    intro heq
    rcases Path.fileFor_eq_temporaryFor.1 heq with ⟨hsame, hz⟩
    rw [hsame] at hz
    exact hc.elim (absurd hsame) (absurd hz)
  refine h.underway.get?_eq fun s hs => ?_
  unfold stagingSteps at hs
  simp only [List.mem_cons, List.not_mem_nil, or_false] at hs
  rcases hs with rfl | rfl | rfl
  · exact List.not_mem_nil
  · exact fun hmem => htemporary (List.mem_singleton.1 hmem)
  · exact fun hmem => htemporary (List.mem_singleton.1 hmem)

/-! ## A stored chunk that is saved again -/

/-- A save can stop when its temporary file has been made. -/
theorem Serves.interrupted (h : Serves f d) (hc : chunk.coord.Fits) :
    Interrupted f d chunk (d.put (Path.temporaryFor f.root chunk.coord) []) :=
  .stopped (.after (Disk.step_makeDirs (h.dir _ hc) (h.noFile _ hc))
    (.after (Disk.step_create (h.temporary _ hc)) .here))

/-- A disk with one chunk. -/
theorem exists_stored (c : ChunkCoord) : ∃ (d : Disk) (chunk : Chunk), chunk.coord = c ∧
    Serves ⟨"save"⟩ d ∧ d.get? (Path.fileFor "save" c) = some chunk.toBytes := by
  have hnew : ∃ chunk, Chunk.new c ⟨1, 1, 1⟩ = .ok chunk := ⟨_, rfl⟩
  rcases hnew with ⟨chunk, hnew⟩
  have hserves : Serves ⟨"save"⟩ .empty := serves_empty (by decide) (by decide)
  refine ⟨Disk.empty.put (Path.fileFor "save" c) chunk.toBytes, chunk, (Chunk.new_spec hnew).1,
    hserves.put _ Path.depth_fileFor, ?_⟩
  rw [Disk.get?_put, if_pos rfl]

/-- The chunk at the origin is still there after its next save was stopped. -/
theorem Interrupted.keeps_chunks_origin : ∃ (d d' : Disk) (chunk : Chunk), chunk.coord = ⟨0, 0⟩ ∧
    Interrupted ⟨"save"⟩ d chunk d' ∧
      d'.get? (Path.fileFor "save" ⟨0, 0⟩) = some chunk.toBytes := by
  have hfits : (⟨0, 0⟩ : ChunkCoord).Fits := ⟨by decide, by decide⟩
  rcases exists_stored ⟨0, 0⟩ with ⟨d, chunk, hcoord, hserves, hstored⟩
  have hinterrupted := hserves.interrupted (hcoord.symm ▸ hfits)
  refine ⟨d, _, chunk, hcoord, hinterrupted, ?_⟩
  rw [← hstored]
  exact hinterrupted.keeps_chunks (.inr (by rw [hcoord]; decide))

/-- A chunk called `tmp` is lost: it is its own temporary file, which is emptied first. -/
theorem Interrupted.loses_chunk : ∃ (d d' : Disk) (chunk : Chunk), chunk.coord = ⟨0, 38401⟩ ∧
    Interrupted ⟨"save"⟩ d chunk d' ∧ chunk.toBytes ≠ [] ∧
      d.get? (Path.fileFor "save" ⟨0, 38401⟩) = some chunk.toBytes ∧
      d'.get? (Path.fileFor "save" ⟨0, 38401⟩) = some [] := by
  have hfits : (⟨0, 38401⟩ : ChunkCoord).Fits := ⟨by decide, by decide⟩
  rcases exists_stored ⟨0, 38401⟩ with ⟨d, chunk, hcoord, hserves, hstored⟩
  refine ⟨d, _, chunk, hcoord, hserves.interrupted (hcoord.symm ▸ hfits), ?_, hstored, ?_⟩
  · unfold Chunk.toBytes Chunk.header
    simp
  · rw [Disk.get?_put, hcoord, if_pos (Path.fileFor_eq_temporaryFor.2 ⟨rfl, rfl⟩)]

end ChunkFiles

end VoxelWorld
