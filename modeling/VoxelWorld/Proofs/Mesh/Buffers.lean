import VoxelWorld.Mesh.ChunkMesh
import Mathlib.Data.List.Basic

/-!
# Proofs.Mesh.Buffers — who holds the buffers of a device

* `Gpu.Live` are the buffers that were uploaded and are not released.
* `Gpu.Lent gpu bs` says that `bs` lists the live buffers, each of them once, and that the record
  of the device is in order: no buffer was released twice, and none was drawn while it was not
  live.
* A mesh owns the buffers that it holds, so what happens to it concerns its part of the list
  alone, whoever has the rest (`Sound.generate_lent`, `Sound.dispose_lent`, `render_lent`).
-/

namespace VoxelWorld

/-- The buffer that a call is about. -/
def GpuCall.buffer : GpuCall → Nat
  | upload b _ => b
  | release b => b
  | draw b _ => b

namespace Gpu

variable {gpu : Gpu} {calls : List GpuCall} {b b' : Nat} {bs rest : List Nat} {pass : Pass}

/-! ## The record -/

@[simp] theorem toList_calls_upload (m : MeshBuild) : (gpu.upload m).2.calls.toList =
    gpu.calls.toList ++ [.upload gpu.next m.quadCount] := Array.toList_push

@[simp] theorem toList_calls_release : (gpu.release b).calls.toList =
    gpu.calls.toList ++ [.release b] := Array.toList_push

theorem toList_calls_releaseAll : (bs.foldl Gpu.release gpu).calls.toList =
    gpu.calls.toList ++ bs.map .release := by
  induction bs generalizing gpu with
  | nil => simp
  | cons b bs ih => simp [ih]

@[simp] theorem toList_calls_draw : (gpu.draw b pass).calls.toList =
    gpu.calls.toList ++ [.draw b pass] := Array.toList_push

/-! ## Live buffers -/

/-- The buffer was uploaded by one of the calls, and no call released it. -/
def Live (calls : List GpuCall) (b : Nat) : Prop :=
  (∃ quads, .upload b quads ∈ calls) ∧ .release b ∉ calls

/-- An upload makes its buffer live. -/
theorem live_upload {quads : Nat} (hnew : .release b ∉ calls) :
    Live (calls ++ [.upload b quads]) b' ↔ b' = b ∨ Live calls b' := by
  simp only [Live, List.mem_append, List.mem_singleton, GpuCall.upload.injEq, reduceCtorEq,
    or_false]
  constructor
  · rintro ⟨⟨q, hup | ⟨rfl, -⟩⟩, hrel⟩
    · exact .inr ⟨⟨q, hup⟩, hrel⟩
    · exact .inl rfl
  · rintro (rfl | ⟨⟨q, hup⟩, hrel⟩)
    · exact ⟨⟨quads, .inr ⟨rfl, rfl⟩⟩, hnew⟩
    · exact ⟨⟨q, .inl hup⟩, hrel⟩

/-- A release takes its own from the live ones. -/
theorem live_release : Live (calls ++ [.release b]) b' ↔ b' ≠ b ∧ Live calls b' := by
  simp only [Live, List.mem_append, List.mem_singleton, GpuCall.release.injEq, reduceCtorEq,
    or_false]
  tauto

/-- Drawing changes nothing of that. -/
theorem live_draw : Live (calls ++ [.draw b pass]) b' ↔ Live calls b' := by
  simp [Live]

/-! ## Lending -/

/-- The record of the device is in order, and the live buffers are those of the list. -/
structure Lent (gpu : Gpu) (bs : List Nat) : Prop where
  nodup : bs.Nodup
  mem_iff : ∀ b, b ∈ bs ↔ Live gpu.calls.toList b
  /-- Numbers are given out from zero on. -/
  numbered : ∀ call ∈ gpu.calls.toList, call.buffer < gpu.next
  released_once : ∀ b, gpu.calls.toList.count (.release b) ≤ 1
  drawn_live : ∀ before b pass after,
    gpu.calls.toList = before ++ .draw b pass :: after → Live before b

/-- A drawing in a longer record is the last call, or it was there before. -/
theorem snoc_split {call call' : GpuCall} {before after : List GpuCall}
    (h : calls ++ [call] = before ++ call' :: after) :
    before = calls ∧ call' = call ∨ ∃ after', calls = before ++ call' :: after' := by
  rcases List.eq_nil_or_concat after with rfl | ⟨after', last, rfl⟩
  · rcases List.append_inj' h rfl with ⟨rfl, hlast⟩
    exact .inl ⟨rfl, (List.singleton_inj.1 hlast).symm⟩
  · rw [List.concat_eq_append, ← List.cons_append, ← List.append_assoc] at h
    exact .inr ⟨after', (List.append_inj' h rfl).1⟩

/-- A new device has lent nothing. -/
theorem lent_new : Lent .new [] where
  nodup := List.nodup_nil
  mem_iff b := by simp [Live, Gpu.new]
  numbered := by simp [Gpu.new]
  released_once := by simp [Gpu.new]
  drawn_live := by simp [Gpu.new]

namespace Lent

/-- The order of the list does not matter. -/
theorem of_count (h : gpu.Lent bs) (hcount : ∀ b, bs.count b = rest.count b) : gpu.Lent rest :=
  have hperm : bs.Perm rest := List.perm_iff_count.2 hcount
  { h with
    nodup := hperm.nodup h.nodup
    mem_iff := fun b => hperm.mem_iff.symm.trans (h.mem_iff b) }

/-- The number to be given out next has never been released. -/
theorem not_released (h : gpu.Lent bs) : .release gpu.next ∉ gpu.calls.toList :=
  fun hmem => Nat.lt_irrefl _ (h.numbered _ hmem)

/-- A call that draws nothing leaves the drawings in order. -/
theorem drawn_live_snoc (h : gpu.Lent bs) {call : GpuCall} (hcall : ∀ b pass, call ≠ .draw b pass)
    {before after : List GpuCall}
    (hsplit : gpu.calls.toList ++ [call] = before ++ .draw b pass :: after) : Live before b := by
  rcases snoc_split hsplit with ⟨-, heq⟩ | ⟨after', hold⟩
  · exact absurd heq.symm (hcall b pass)
  · exact h.drawn_live before b pass after' hold

/-- Calls about numbers given out so far leave room for the next one. -/
theorem numbered_snoc (h : gpu.Lent bs) {call : GpuCall} {n : Nat} (hn : gpu.next ≤ n)
    (hcall : call.buffer < n) : ∀ c ∈ gpu.calls.toList ++ [call], c.buffer < n := by
  intro c hc
  rcases List.mem_append.1 hc with hold | hnew
  · exact Nat.lt_of_lt_of_le (h.numbered c hold) hn
  · rw [List.mem_singleton.1 hnew]
    exact hcall

/-- The number of a listed buffer was given out. -/
theorem lt_next (h : gpu.Lent bs) (hb : b ∈ bs) : b < gpu.next := by
  rcases ((h.mem_iff b).1 hb).1 with ⟨quads, hup⟩
  exact h.numbered _ hup

/-- An upload lends one more buffer. -/
theorem upload (h : gpu.Lent bs) (m : MeshBuild) :
    (gpu.upload m).2.Lent ((gpu.upload m).1 :: bs) := by
  refine ⟨?_, fun b => ?_, ?_, fun b => ?_, fun before b pass after hsplit => ?_⟩
  · exact List.nodup_cons.2 ⟨fun hmem => Nat.lt_irrefl _ (h.lt_next hmem), h.nodup⟩
  · rw [toList_calls_upload, live_upload h.not_released, List.mem_cons, h.mem_iff]
    rfl
  · rw [toList_calls_upload]
    exact h.numbered_snoc (Nat.le_succ _) (Nat.lt_succ_self _)
  · rw [toList_calls_upload, List.count_append, List.count_singleton]
    simpa using h.released_once b
  · rw [toList_calls_upload] at hsplit
    exact h.drawn_live_snoc (by simp) hsplit

/-- A release takes one back. -/
theorem release (h : gpu.Lent (b :: bs)) : (gpu.release b).Lent bs := by
  rcases List.nodup_cons.1 h.nodup with ⟨hnot, hnodup⟩
  have hb : Live gpu.calls.toList b := (h.mem_iff b).1 List.mem_cons_self
  refine ⟨hnodup, fun b' => ?_, ?_, fun b' => ?_, fun before b' pass after hsplit => ?_⟩
  · rw [toList_calls_release, live_release, ← h.mem_iff, List.mem_cons]
    constructor
    · intro hmem
      exact ⟨fun heq => hnot (heq ▸ hmem), .inr hmem⟩
    · rintro ⟨hne, rfl | hmem⟩
      · exact absurd rfl hne
      · exact hmem
  · rw [toList_calls_release]
    exact h.numbered_snoc (Nat.le_refl _) (h.lt_next List.mem_cons_self)
  · rw [toList_calls_release, List.count_append, List.count_singleton]
    by_cases heq : b' = b
    · -- it was live, so it had not been released
      subst heq
      rw [List.count_eq_zero.2 hb.2]
      simp
    · simpa [Ne.symm heq] using h.released_once b'
  · rw [toList_calls_release] at hsplit
    exact h.drawn_live_snoc (by simp) hsplit

/-- Releasing buffers one after the other takes them all back. -/
theorem releaseAll (h : gpu.Lent (bs ++ rest)) : (bs.foldl Gpu.release gpu).Lent rest := by
  induction bs generalizing gpu with
  | nil => exact h
  | cons b bs ih => exact ih h.release

/-- Drawing a live buffer keeps the record in order. -/
theorem draw (h : gpu.Lent bs) (hb : b ∈ bs) : (gpu.draw b pass).Lent bs := by
  refine ⟨h.nodup, fun b' => ?_, ?_, fun b' => ?_, fun before b' pass' after hsplit => ?_⟩
  · rw [toList_calls_draw, live_draw, h.mem_iff]
  · rw [toList_calls_draw]
    exact h.numbered_snoc (Nat.le_refl _) (h.lt_next hb)
  · rw [toList_calls_draw, List.count_append, List.count_singleton]
    simpa using h.released_once b'
  · rw [toList_calls_draw] at hsplit
    -- the draw is either the new call, whose buffer is live, or one of those before
    rcases snoc_split hsplit with ⟨rfl, heq⟩ | ⟨after', hold⟩
    · cases heq
      exact (h.mem_iff _).1 hb
    · exact h.drawn_live before b' pass' after' hold

end Lent

end Gpu

namespace ChunkMesh

variable {m : ChunkMesh} {gpu : Gpu} {rest : List Nat} {pass : Pass}

/-! ## Meshes -/

/-- A mesh has buffers only between its upload and its disposal. -/
structure Sound (m : ChunkMesh) : Prop where
  buffers_of_not_generated : m.generated = false → m.buffers = []
  buffers_of_disposed : m.disposed = true → m.buffers = []

theorem Sound.new (g : MeshGeometry) : (ChunkMesh.new g).Sound := ⟨fun _ => rfl, fun _ => rfl⟩

/-- Uploading keeps that, as it happens once. -/
theorem Sound.generate (h : m.Sound) : (m.generate gpu).1.Sound := by
  unfold ChunkMesh.generate
  split
  · exact h
  · rename_i hno
    rcases Bool.or_eq_false_iff.1 (Bool.eq_false_iff.2 hno) with ⟨hgen, hlive⟩
    split
    · exact ⟨fun _ => h.buffers_of_not_generated hgen, h.buffers_of_disposed⟩
    · exact ⟨nofun, fun hdisposed => absurd (hlive.symm.trans hdisposed) Bool.false_ne_true⟩

/-- A disposed mesh has given its buffers back. -/
theorem Sound.dispose (h : m.Sound) : (m.dispose gpu).1.Sound := by
  unfold ChunkMesh.dispose
  split
  · exact h
  · exact ⟨fun _ => rfl, fun _ => rfl⟩

/-- The first disposal releases what the mesh holds. -/
theorem calls_dispose (h : m.disposed = false) :
    (m.dispose gpu).2.calls.toList = gpu.calls.toList ++ m.buffers.map .release := by
  unfold dispose
  rw [if_neg (by simp [h])]
  exact Gpu.toList_calls_releaseAll

/-- Nothing is left of a mesh that was disposed. -/
theorem Sound.buffers_dispose (h : m.Sound) : (m.dispose gpu).1.buffers = [] := by
  unfold ChunkMesh.dispose
  split
  · rename_i hdisposed
    exact h.buffers_of_disposed hdisposed
  · rfl

/-- A pass without quads takes no buffer. -/
theorem uploadPass_lent (b : MeshBuild) (h : gpu.Lent rest) :
    (uploadPass b gpu).2.Lent ((uploadPass b gpu).1.toList ++ rest) := by
  unfold uploadPass
  split
  · exact h
  · exact h.upload b

/-- Uploading a mesh lends it the buffers of its passes. -/
theorem Sound.generate_lent (hm : m.Sound) (h : gpu.Lent (m.buffers ++ rest)) :
    (m.generate gpu).2.Lent ((m.generate gpu).1.buffers ++ rest) := by
  unfold ChunkMesh.generate
  split
  · exact h
  · rename_i hno
    rcases Bool.or_eq_false_iff.1 (Bool.eq_false_iff.2 hno) with ⟨hgen, -⟩
    split
    · exact h
    · rename_i g _
      rw [hm.buffers_of_not_generated hgen] at h
      have hboth := uploadPass_lent g.translucent (uploadPass_lent g.solid h)
      apply hboth.of_count
      intro b
      simp only [buffers, List.count_append, List.nil_append]
      omega

/-- Disposing it takes them back. -/
theorem Sound.dispose_lent (hm : m.Sound) (h : gpu.Lent (m.buffers ++ rest)) :
    (m.dispose gpu).2.Lent rest := by
  unfold ChunkMesh.dispose
  split
  · rename_i hdisposed
    rw [hm.buffers_of_disposed hdisposed] at h
    exact h
  · exact h.releaseAll

/-- Drawing a mesh draws one of its buffers, or none. -/
theorem render_lent (hm : ∀ b ∈ m.buffers, b ∈ rest) (h : gpu.Lent rest) :
    (m.render pass gpu).Lent rest := by
  unfold render
  split
  · exact h
  · split
    · exact h
    · rename_i b hb
      apply h.draw
      apply hm
      cases pass <;> simp_all [buffer?, buffers]

end ChunkMesh

end VoxelWorld
