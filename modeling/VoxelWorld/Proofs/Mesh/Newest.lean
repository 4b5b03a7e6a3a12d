import VoxelWorld.Mesh.Job
import VoxelWorld.Proofs.Ensures
import VoxelWorld.Proofs.Mesh.Slots
import Mathlib.Data.List.Perm.Basic

/-!
# Proofs.Mesh.Newest — the newest build of a mesh wins

* `Builds` is one chunk with the builds of its mesh. A build is a job, which is submitted and
  finished at some later time with any mesh, or it is done in place. Builds are numbered in the
  order in which they start, and the meshes that they hand over are kept with these numbers.
* Building in place takes two steps, between which jobs may finish and the chunk may be drawn or
  disposed; but no other build starts, as the owner of the chunk starts them all. Nothing
  happens between the steps of `install` (`install_eq`).
* `Newest` is what every act keeps: the pending mesh is the one of the build that was the last to
  start. `Later` is what becomes of a state: an active mesh that was not there yet is of a build
  that was not started earlier.
-/

namespace VoxelWorld

/-- Uploading twice is uploading once. -/
theorem ChunkMesh.generate_generate {m : ChunkMesh} {gpu gpu' : Gpu} :
    ((m.generate gpu).1.generate gpu').1 = (m.generate gpu).1 := by
  have hdone : ((m.generate gpu).1.generated || (m.generate gpu).1.disposed) = true := by
    unfold generate
    split
    · assumption
    · split <;> rfl
  generalize (m.generate gpu).1 = m' at hdone
  unfold generate
  rw [if_pos hdone]

/-- A job offers the mesh that it builds. -/
theorem MeshJob.of_finish {reg : Registry} {job : MeshJob} {life life' : Lifecycle} {gpu gpu' : Gpu}
    {done : MeshDone} (h : job.finish reg life gpu = .ok (done, life', gpu')) :
    ∃ g, life.installIfCurrent job.ticket (.new g) gpu = (done.installed, life', gpu') := by
  unfold finish at h
  rcases Checked.bind_eq_ok.1 h with ⟨g, -, h⟩
  cases Checked.pure_eq_ok.1 h
  exact ⟨g, rfl⟩

/-- A chunk with the builds of its mesh. -/
structure Builds where
  life : Lifecycle := .new
  gpu : Gpu := .new
  workers : MeshWorkers
  /-- How many builds were started. -/
  started : Nat := 0
  /-- The jobs that are not finished, each with the number of its build. -/
  jobs : List (Nat × MeshJob) := []
  /-- The build in place that has taken its first step. -/
  inPlace : Option Nat := none
  /-- The meshes that were handed over, each with the number of its build. -/
  given : List (Nat × ChunkMesh) := []

namespace Builds

/-! ## Acts -/

/-- Starts a job. -/
def submit (s : Builds) (snapshot : Snapshot) : Builds :=
  if s.inPlace.isSome then s
  else
    let (job, workers, life, gpu) := s.workers.submit snapshot s.life s.gpu
    { s with life, gpu, workers, started := s.started + 1, jobs := (s.started + 1, job) :: s.jobs }

/-- Finishes a job, which is named by its place, with a mesh. -/
def finish (s : Builds) (i : Nat) (m : ChunkMesh) : Builds :=
  match s.jobs[i]? with
  | none => s
  | some (n, job) =>
    let (_, life, gpu) := s.life.installIfCurrent job.ticket m s.gpu
    { s with life, gpu, jobs := s.jobs.eraseIdx i, given := (n, m) :: s.given }

/-- Builds in place. -/
def install (s : Builds) (m : ChunkMesh) : Builds :=
  if s.inPlace.isSome then s
  else
    let (taken, life, gpu) := s.life.installMesh m s.gpu
    if taken then
      { s with life, gpu, started := s.started + 1, given := (s.started + 1, m) :: s.given }
    else s

/-- The first step of building in place. -/
def beginInPlace (s : Builds) : Builds :=
  if s.inPlace.isSome || s.life.fresh then s
  else
    let (_, life, gpu) := s.life.beginMesh s.gpu
    { s with life, gpu, started := s.started + 1, inPlace := some (s.started + 1) }

/-- The second step of building in place. -/
def endInPlace (s : Builds) (m : ChunkMesh) : Builds :=
  match s.inPlace with
  | none => s
  | some n =>
    let (life, gpu) := s.life.setNewMesh m s.gpu
    { s with
      life := { life with dirty := false }, gpu, inPlace := none, given := (n, m) :: s.given }

/-- What can be done. -/
inductive Act
  | submit (snapshot : Snapshot)
  | finish (i : Nat) (m : ChunkMesh)
  | install (m : ChunkMesh)
  | beginInPlace
  | endInPlace (m : ChunkMesh)
  | generate
  | update
  | render (pass : Pass)
  | dispose
  | setFlags (dirty lightDirty fresh visible : Bool)

def perform (s : Builds) : Act → Builds
  | .submit snapshot => s.submit snapshot
  | .finish i m => s.finish i m
  | .install m => s.install m
  | .beginInPlace => s.beginInPlace
  | .endInPlace m => s.endInPlace m
  | .generate =>
    let (life, gpu) := s.life.generate s.gpu
    { s with life, gpu }
  | .update =>
    let (_, life, gpu) := s.life.update s.gpu
    { s with life, gpu }
  | .render pass => { s with gpu := s.life.render pass s.gpu }
  | .dispose =>
    let (life, gpu) := s.life.dispose s.gpu
    { s with life, gpu }
  | .setFlags dirty lightDirty fresh visible =>
    { s with life := { s.life with dirty, lightDirty, fresh, visible } }

/-- What a list of acts makes of a new chunk. -/
def run (workers : MeshWorkers) (acts : List Act) : Builds := acts.foldl perform { workers }

variable {s s' s'' : Builds} {m p : ChunkMesh} {n i : Nat} {incoming : Option ChunkMesh}
  {life : Lifecycle} {gpu : Gpu}

/-- Installing a mesh is building it in place at once, or nothing happens. -/
theorem install_eq (s : Builds) (m : ChunkMesh) :
    s.install m = s ∨ s.install m = s.beginInPlace.endInPlace m := by
  unfold install beginInPlace Lifecycle.installMesh
  cases hbusy : s.inPlace with
  | some n => exact .inl rfl
  | none =>
    cases hfresh : s.life.fresh with
    | true => exact .inl rfl
    | false => exact .inr rfl

/-! ## Meshes and their builds -/

/-- The mesh of a build, which may have been uploaded since. -/
def From (s : Builds) (n : Nat) (p : ChunkMesh) : Prop :=
  ∃ m, (n, m) ∈ s.given ∧ (p = m ∨ ∃ gpu, p = (m.generate gpu).1)

/-- Uploading a mesh does not change which build it is of. -/
theorem From.uploaded (h : s.From n p) : s.From n (p.generate gpu).1 := by
  rcases h with ⟨m, hm, rfl | ⟨gpu', rfl⟩⟩
  · exact ⟨p, hm, .inr ⟨gpu, rfl⟩⟩
  · exact ⟨m, hm, .inr ⟨gpu', ChunkMesh.generate_generate⟩⟩

/-- What was handed over stays so. -/
theorem From.mono (h : s.From n p) (hgiven : s.given ⊆ s'.given) : s'.From n p := by
  rcases h with ⟨m, hm, hp⟩
  exact ⟨m, hgiven hm, hp⟩

/-- The numbers of the builds: those that are not finished, and those that are. -/
def numbers (s : Builds) : List Nat :=
  s.jobs.map Prod.fst ++ (s.inPlace.toList ++ s.given.map Prod.fst)

/-- Finishing a job takes its number out. -/
theorem count_jobs {jobs : List (Nat × MeshJob)} {job : MeshJob} (h : jobs[i]? = some (n, job))
    (k : Nat) : (jobs.map Prod.fst).count k =
      [n].count k + ((jobs.eraseIdx i).map Prod.fst).count k := by
  rcases List.getElem?_eq_some_iff.1 h with ⟨hi, heq⟩
  have hperm := (List.getElem_cons_eraseIdx_perm hi).map Prod.fst
  rw [← hperm.count_eq, heq, List.map_cons, ← List.count_append]
  rfl

/-! ## The invariant -/

/-- The pending mesh is the one of the build that was the last to start. -/
structure Newest (s : Builds) : Prop where
  ticket : s.life.ticket = s.started
  jobs : ∀ n job, (n, job) ∈ s.jobs → job.ticket = n
  inPlace : ∀ n ∈ s.inPlace, n = s.started
  /-- A build hands over one mesh, when it is finished. -/
  once : s.numbers.Nodup
  le_started : ∀ n ∈ s.numbers, n ≤ s.started
  pending : ∀ p, s.life.pendingMesh? = some p → s.From s.started p

/-- What becomes of the active mesh. -/
structure Later (s s' : Builds) : Prop where
  started : s.started ≤ s'.started
  given : s.given ⊆ s'.given
  active : ∀ m, s'.life.activeMesh? = some m →
    s.life.activeMesh? = some m ∨ ∃ n, s.started ≤ n ∧ s'.From n m

theorem Later.refl (s : Builds) : Later s s :=
  ⟨Nat.le_refl _, fun _ => id, fun _ => .inl⟩

/-- Step by step, the active mesh is of a later build or stays. -/
theorem Later.trans (h : Later s s') (h' : Later s' s'') : Later s s'' where
  started := Nat.le_trans h.started h'.started
  given := List.Subset.trans h.given h'.given
  active m hm := by
    -- it came in the second stretch, or in the first one, or it was there all along
    rcases h'.active m hm with hm | ⟨n, hn, hfrom⟩
    · rcases h.active m hm with hm | ⟨n, hn, hfrom⟩
      · exact .inl hm
      · exact .inr ⟨n, hn, hfrom.mono h'.given⟩
    · exact .inr ⟨n, Nat.le_trans h.started hn, hfrom⟩

namespace Newest

/-- A new chunk has started no builds. -/
theorem first (workers : MeshWorkers) : Newest { workers } where
  ticket := rfl
  jobs := nofun
  inPlace := nofun
  once := List.nodup_nil
  le_started := nofun
  pending := nofun

/-- A mesh becomes active from the pending slot, and there is the newest one. -/
theorem later (h : s.Newest) (hmoves : Lifecycle.Moves incoming s.life s.gpu s'.life gpu)
    (hstarted : s.started ≤ s'.started) (hgiven : s.given ⊆ s'.given) : Later s s' where
  started := hstarted
  given := hgiven
  active m hm := by
    rcases hmoves.active_cases hm with hold | ⟨hpending, -⟩
    · exact .inl hold
    · exact .inr ⟨s.started, Nat.le_refl _, (h.pending m hpending).mono hgiven⟩

/-- No build starts, and none is finished. -/
theorem serve (h : s.Newest) (hmoves : Lifecycle.Moves none s.life s.gpu life gpu)
    (hticket : life.ticket = s.life.ticket) :
    Newest { s with life, gpu } ∧ Later s { s with life, gpu } := by
  constructor
  · refine { h with ticket := hticket.trans h.ticket, pending := fun p hp => ?_ }
    rcases hmoves.pending_cases hp with hno | ⟨q, hq, rfl | ⟨gpu', rfl⟩⟩
    · cases hno
    · exact h.pending p hq
    · exact From.uploaded (h.pending q hq)
  · exact h.later hmoves (Nat.le_refl _) (List.Subset.refl _)

/-- A build starts, as a job or in place. -/
theorem start (h : s.Newest) (hlife : s'.life = (s.life.beginMesh s.gpu).2.1)
    (hstarted : s'.started = s.started + 1) (hgiven : s'.given = s.given)
    (hjobs : ∀ n job, (n, job) ∈ s'.jobs → job.ticket = n)
    (hinPlace : ∀ n ∈ s'.inPlace, n = s'.started)
    (hnumbers : s'.numbers.Perm ((s.started + 1) :: s.numbers)) :
    s'.Newest ∧ Later s s' := by
  have hmoves : Lifecycle.Moves none s.life s.gpu s'.life (s.life.beginMesh s.gpu).2.2 :=
    hlife ▸ Lifecycle.beginMesh_moves
  constructor
  · -- the new number is above all others, and nothing is pending for it yet
    refine ⟨?_, hjobs, hinPlace, ?_, fun n hn => ?_, fun p hp => ?_⟩
    · rw [hlife, Lifecycle.ticket_beginMesh, h.ticket, hstarted]
    · refine hnumbers.symm.nodup (List.nodup_cons.2 ⟨fun hmem => ?_, h.once⟩)
      exact Nat.not_succ_le_self _ (h.le_started _ hmem)
    · rw [hstarted]
      rcases List.mem_cons.1 (hnumbers.mem_iff.1 hn) with rfl | hold
      · exact Nat.le_refl _
      · exact Nat.le_succ_of_le (h.le_started n hold)
    · rw [hlife, Lifecycle.pendingMesh?_beginMesh] at hp
      cases hp
  · exact h.later hmoves (hstarted ▸ Nat.le_succ _) (hgiven ▸ List.Subset.refl _)

/-- A build is finished. Its mesh is pending now only if it was the last to start. -/
theorem handOver (h : s.Newest) (hmoves : Lifecycle.Moves incoming s.life s.gpu s'.life gpu)
    (hticket : s'.life.ticket = s.life.ticket) (hstarted : s'.started = s.started)
    (hgiven : s'.given = (n, m) :: s.given) (hjobs : s'.jobs ⊆ s.jobs)
    (hinPlace : ∀ k ∈ s'.inPlace, k ∈ s.inPlace) (hnumbers : s'.numbers.Perm s.numbers)
    (hpending : ∀ p, s'.life.pendingMesh? = some p →
      s.life.pendingMesh? = some p ∨ n = s.started ∧ p = m) : s'.Newest ∧ Later s s' := by
  have hmore : s.given ⊆ s'.given := hgiven ▸ List.subset_cons_self _ _
  constructor
  · -- no number is new, so only the pending mesh is to be looked at
    refine ⟨?_, fun k job hjob => h.jobs k job (hjobs hjob), fun k hk => ?_,
      hnumbers.symm.nodup h.once, fun k hk => ?_, fun p hp => ?_⟩
    · rw [hticket, hstarted, h.ticket]
    · rw [hstarted]
      exact h.inPlace k (hinPlace k hk)
    · rw [hstarted]
      exact h.le_started k (hnumbers.mem_iff.1 hk)
    · rw [hstarted]
      rcases hpending p hp with hold | ⟨rfl, rfl⟩
      · exact (h.pending p hold).mono hmore
      · exact ⟨p, hgiven ▸ List.mem_cons_self, .inl rfl⟩
  · exact h.later hmoves (Nat.le_of_eq hstarted.symm) hmore

/-- Starting a job makes it the newest build. -/
theorem submit (h : s.Newest) (snapshot : Snapshot) :
    (s.submit snapshot).Newest ∧ Later s (s.submit snapshot) := by
  unfold Builds.submit
  split
  · exact ⟨h, .refl s⟩
  · refine h.start rfl rfl rfl (fun n job hjob => ?_) (fun n hn => ?_) (.refl _)
    · rcases List.mem_cons.1 hjob with heq | hold
      · cases heq
        exact Lifecycle.beginMesh_fst.trans (congrArg (· + 1) h.ticket)
      · exact h.jobs n job hold
    · simp_all

/-- Starting to build in place keeps the pending mesh the newest, and builds only get later. -/
theorem beginInPlace (h : s.Newest) : s.beginInPlace.Newest ∧ Later s s.beginInPlace := by
  unfold Builds.beginInPlace
  split
  · exact ⟨h, .refl s⟩
  · rename_i hfree
    have hfree : s.inPlace = none := by simp_all
    refine h.start rfl rfl rfl h.jobs (fun n hn => (Option.some.inj hn).symm) ?_
    unfold numbers
    rw [hfree]
    exact List.perm_middle

/-- What is built in place is newest, since nothing is started in between. -/
theorem endInPlace (h : s.Newest) (m : ChunkMesh) :
    (s.endInPlace m).Newest ∧ Later s (s.endInPlace m) := by
  unfold Builds.endInPlace
  split
  · exact ⟨h, .refl s⟩
  · rename_i n hn
    have hmoves : Lifecycle.Moves (some m) s.life s.gpu
        { (s.life.setNewMesh m s.gpu).1 with dirty := false } (s.life.setNewMesh m s.gpu).2 :=
      Lifecycle.setNewMesh_moves.of_slots rfl
    refine h.handOver (n := n) (m := m) hmoves Lifecycle.ticket_setNewMesh rfl rfl
      (List.Subset.refl _) nofun ?_ fun p hp => ?_
    · unfold numbers
      rw [hn]
      exact .append_left _ (.refl _)
    · rcases Lifecycle.pendingMesh?_setNewMesh hp with hold | hnew
      · exact .inl hold
      · exact .inr ⟨h.inPlace n hn, hnew⟩

/-- A job that is finished has the last ticket, or its mesh is disposed. -/
theorem finish (h : s.Newest) (i : Nat) (m : ChunkMesh) :
    (s.finish i m).Newest ∧ Later s (s.finish i m) := by
  unfold Builds.finish
  split
  · exact ⟨h, .refl s⟩
  · rename_i n job hi
    have hjob : job.ticket = n := h.jobs n job (List.mem_of_getElem? hi)
    refine h.handOver (n := n) (m := m) Lifecycle.installIfCurrent_moves
      Lifecycle.ticket_installIfCurrent rfl rfl List.eraseIdx_subset (fun _ => id) ?_
      fun p hp => ?_
    · refine List.perm_iff_count.2 fun k => ?_
      simp only [numbers, List.map_cons, List.count_append, List.count_cons, List.count_nil,
        count_jobs hi]
      omega
    · -- a job is taken by its ticket, which is the number of the newest build
      cases htaken : (s.life.installIfCurrent job.ticket m s.gpu).1 with
      | true =>
        right
        have hcurrent := (Lifecycle.installIfCurrent_eq_true_iff.1 htaken).1
        rw [Lifecycle.pendingMesh?_of_live (Lifecycle.slots_of_installIfCurrent htaken)] at hp
        cases hp
        exact ⟨hjob.symm.trans (hcurrent.symm.trans h.ticket), rfl⟩
      | false =>
        left
        rw [Lifecycle.installIfCurrent_of_eq_false htaken] at hp
        exact hp

/-- Building in place at once is both of its steps. -/
theorem install (h : s.Newest) (m : ChunkMesh) :
    (s.install m).Newest ∧ Later s (s.install m) := by
  rcases install_eq s m with hsame | hsteps
  · rw [hsame]
    exact ⟨h, .refl s⟩
  · rw [hsteps]
    rcases h.beginInPlace with ⟨hbegin, hlater⟩
    rcases hbegin.endInPlace m with ⟨hend, hlater'⟩
    exact ⟨hend, hlater.trans hlater'⟩

/-- Every act keeps the pending mesh the newest. -/
theorem perform (h : s.Newest) (act : Act) :
    (s.perform act).Newest ∧ Later s (s.perform act) := by
  cases act with
  | submit snapshot => exact h.submit snapshot
  | finish i m => exact h.finish i m
  | install m => exact h.install m
  | beginInPlace => exact h.beginInPlace
  | endInPlace m => exact h.endInPlace m
  | generate => exact h.serve Lifecycle.generate_moves Lifecycle.ticket_generate
  | update => exact h.serve Lifecycle.update_moves Lifecycle.ticket_update
  | render pass => exact h.serve Lifecycle.render_moves rfl
  | dispose => exact h.serve Lifecycle.dispose_moves Lifecycle.ticket_dispose
  | setFlags => exact h.serve (.idle rfl) rfl

/-- Every list of acts keeps the pending mesh the newest, and builds only get later. -/
theorem foldl (h : s.Newest) (acts : List Act) :
    (acts.foldl Builds.perform s).Newest ∧ Later s (acts.foldl Builds.perform s) := by
  induction acts generalizing s with
  | nil => exact ⟨h, .refl s⟩
  | cons act acts ih =>
    rcases h.perform act with ⟨hact, hlater⟩
    rcases ih hact with ⟨hacts, hlater'⟩
    exact ⟨hacts, hlater.trans hlater'⟩

/-- After any run the pending mesh is the newest. -/
theorem run (workers : MeshWorkers) (acts : List Act) : (run workers acts).Newest :=
  ((first workers).foldl acts).1

end Newest

/-! ## Results -/

/-- After every run, and after every run that goes on from there: the pending mesh is the one of
the build that was the last to start, and a mesh that became active since is not of an earlier
one. Tickets count the builds, and each build hands over one mesh. A job that is finished installs
its mesh exactly if it was the last build to start and the chunk is not disposed; otherwise the
mesh is disposed and the chunk stays as it is. -/
theorem newest_build_wins (workers : MeshWorkers) (acts more : List Act) :
    let s := run workers acts
    let s' := run workers (acts ++ more)
    s.life.ticket = s.started ∧ s.started ≤ s'.started ∧ (s'.given.map Prod.fst).Nodup ∧
    (∀ p, s'.life.pendingMesh? = some p → s'.From s'.started p) ∧
    (∀ m, s'.life.activeMesh? = some m →
      s.life.activeMesh? = some m ∨ ∃ n, s.started ≤ n ∧ s'.From n m) ∧
    ∀ n job m, (n, job) ∈ s.jobs → let r := s.life.installIfCurrent job.ticket m s.gpu
      (r.1 = true ↔ n = s.started ∧ s.life.isDisposed = false) ∧
      (r.1 = true → r.2.1.pendingMesh? = some m ∧ r.2.1.activeMesh? = s.life.activeMesh?) ∧
      (r.1 = false → r.2 = (s.life, (m.dispose s.gpu).2)) ∧
      ∀ reg done after, job.finish reg s.life s.gpu = .ok (done, after) →
        (done.installed = true ↔ n = s.started ∧ s.life.isDisposed = false) := by
  have h := Newest.run workers acts
  have hrun : run workers (acts ++ more) = more.foldl perform (run workers acts) :=
    List.foldl_append
  rcases h.foldl more with ⟨h', hlater⟩
  have hwins : ∀ n job m, (n, job) ∈ (run workers acts).jobs →
      (((run workers acts).life.installIfCurrent job.ticket m (run workers acts).gpu).1 = true ↔
        n = (run workers acts).started ∧ (run workers acts).life.isDisposed = false) := by
    intro n job m hjob
    rw [Lifecycle.installIfCurrent_eq_true_iff, h.ticket, h.jobs n job hjob]
    exact and_congr_left' eq_comm
  simp only [hrun]
  refine ⟨h.ticket, hlater.started, ?_, h'.pending, hlater.active, fun n job m hjob =>
    ⟨hwins n job m hjob, ?_, ?_, fun reg done after hfinish => ?_⟩⟩
  · -- a build that handed its mesh over is one of all builds
    have honce := h'.once
    unfold numbers at honce
    rw [← List.append_assoc] at honce
    exact (List.nodup_append.1 honce).2.1
  · intro htaken
    have hslots := Lifecycle.slots_of_installIfCurrent htaken
    exact ⟨Lifecycle.pendingMesh?_of_live hslots, Lifecycle.activeMesh?_of_live hslots⟩
  · intro hrefused
    rw [Lifecycle.installIfCurrent_of_eq_false hrefused]
  · -- finishing a job is installing the mesh that it built
    rcases MeshJob.of_finish hfinish with ⟨g, hg⟩
    have hinstalled := hwins n job (.new g) hjob
    rw [hg] at hinstalled
    exact hinstalled

/-- Of two jobs the second installs its mesh, and the first does not, whichever is finished
first. -/
theorem newest_build_wins_two_jobs :
    let s := run (.new 1) [.submit default, .submit default]
    let m : ChunkMesh := .new .empty
    ∃ job job', s.jobs = [(2, job), (1, job')] ∧
      (s.life.installIfCurrent job.ticket m s.gpu).1 = true ∧
      (s.life.installIfCurrent job'.ticket m s.gpu).1 = false := by
  intro s m
  rcases newest_build_wins (.new 1) [.submit default, .submit default] [] with
    ⟨-, -, -, -, -, hjobs⟩
  refine ⟨_, _, rfl, ?_, ?_⟩
  · exact (hjobs 2 _ m List.mem_cons_self).1.2 ⟨rfl, rfl⟩
  · rw [Bool.eq_false_iff]
    intro htaken
    cases ((hjobs 1 _ m (List.mem_cons_of_mem _ List.mem_cons_self)).1.1 htaken).1

end Builds

end VoxelWorld
