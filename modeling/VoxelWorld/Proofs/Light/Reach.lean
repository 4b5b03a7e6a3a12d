import VoxelWorld.Proofs.Light.Decay
import VoxelWorld.Proofs.Light.Guarded

/-!
# Proofs.Light.Reach — light never outruns its sources

Retractions may be wrong: a level that was never there is taken back, cells go dark that had their
light from elsewhere, and whatever is bright around them is spread again. Still no cell gets
brighter than the sources account for.

* `reach` is what the spread calls of a run account for at a cell: the largest value less the
  number of axis steps to its origin, whatever stands in between.
* Whatever falls by at most one with each step bounds the levels through every call
  (`Flood.run_ensures`), and so does `reach` through a run (`runAll_ensures`).
* `light_within_reach` says so of a chunk on its own, for runs from the dark.
-/

namespace VoxelWorld

namespace Light

/-! ## Axis steps -/

/-- The number of axis steps between two positions. -/
def taxicab (p q : Pos) : Nat := (p.x - q.x).natAbs + (p.y - q.y).natAbs + (p.z - q.z).natAbs

theorem taxicab_self (p : Pos) : taxicab p p = 0 := by
  unfold taxicab
  omega

/-- One step changes the number by one at most. -/
theorem taxicab_le_of_adjacent {p q o : Pos} (h : Adjacent p q) :
    taxicab q o ≤ taxicab p o + 1 := by
  rcases h with ⟨d, hd, rfl⟩
  have hstep : ∀ d ∈ directions, d.1.natAbs + d.2.1.natAbs + d.2.2.natAbs = 1 := by decide
  have haxis : ∀ a b c : Int, (a + b - c).natAbs ≤ (a - c).natAbs + b.natAbs := by
    intro a b c
    omega
  calc taxicab (shift p d) o
      ≤ ((p.x - o.x).natAbs + d.1.natAbs) + ((p.y - o.y).natAbs + d.2.1.natAbs) +
          ((p.z - o.z).natAbs + d.2.2.natAbs) :=
        Nat.add_le_add (Nat.add_le_add (haxis ..) (haxis ..)) (haxis ..)
    _ = taxicab p o + (d.1.natAbs + d.2.1.natAbs + d.2.2.natAbs) := by
        unfold taxicab
        ac_rfl
    _ = taxicab p o + 1 := by rw [hstep d hd]

/-- A bound that falls by at most one with each step. -/
def Gentle (B : Levels) : Prop := ∀ p q, Adjacent p q → B p ≤ B q + 1

namespace Gentle

variable {B B' : Levels}

theorem zero : Gentle fun _ => 0 := fun _ _ _ => Nat.zero_le _

/-- The larger of two gentle bounds is gentle. -/
theorem max (h : Gentle B) (h' : Gentle B') : Gentle fun p => Max.max (B p) (B' p) := by
  intro p q hadj
  have hB := h p q hadj
  have hB' := h' p q hadj
  simp only
  omega

/-- Light that falls off from one origin is too. -/
theorem cone (o : Pos) (v : Nat) : Gentle fun p => v - taxicab p o := by
  intro p q hadj
  have := taxicab_le_of_adjacent (o := o) hadj
  simp only
  omega

/-- Levels under a gentle bound may be written, for they fall as fast as light does. -/
theorem allowance (h : Gentle B) : Allowance fun p v => v ≤ B p where
  zero _ := Nat.zero_le _
  mono hle hm := hm.trans hle
  step {p q n} hle hadj := by
    have := h p q hadj
    omega

end Gentle

/-! ## Calls -/

/-- A call to light up or to take back, anywhere and with any value. -/
inductive Flood where
  | spread (origin : Pos) (value : Nat)
  | retract (origin : Pos) (value : Nat)

namespace Flood

variable {V : Type} [LightVolume V]

def origin : Flood → Pos
  | .spread o _ => o
  | .retract o _ => o

def run (reg : Registry) (k : LightKind) (vol : V) : Flood → Checked V
  | .spread o v => Light.spread reg vol o k v
  | .retract o v => Light.retract reg vol o k v

/-- What a call accounts for at a cell. -/
def lent (p : Pos) : Flood → Nat
  | .spread o v => min v maxLight - taxicab p o
  | .retract _ _ => 0

/-- What one call accounts for is a gentle bound. -/
theorem gentle_lent (c : Flood) : Gentle fun p => c.lent p := by
  cases c with
  | spread o v => exact Gentle.cone o (min v maxLight)
  | retract o v => exact Gentle.zero

end Flood

/-- One call after the other. -/
def runAll {V : Type} [LightVolume V] (reg : Registry) (k : LightKind) (vol : V)
    (calls : List Flood) : Checked V :=
  calls.foldlM (Flood.run reg k) vol

/-- What the calls account for at a cell: the most that one of them does. -/
def reach (calls : List Flood) (p : Pos) : Nat := (calls.map (Flood.lent p)).foldr max 0

theorem reach_cons (c : Flood) (calls : List Flood) (p : Pos) :
    reach (c :: calls) p = max (c.lent p) (reach calls p) := rfl

end Light

/-! ## A chunk on its own -/

namespace ChunkVolume

open Light

variable {vol vol' : ChunkVolume} {o p : Pos} {k : LightKind} {B : Levels} {faulty : Prop}

/-- No coordinate overflows at the position or one step on. -/
structure Clear (vol : ChunkVolume) (p : Pos) : Prop where
  localFits : vol.LocalFits p
  fits : ∀ d ∈ directions, FitsCoord (p.x + d.1) ∧ FitsCoord (p.y + d.2.1) ∧ FitsCoord (p.z + d.2.2)
  beside : ∀ d ∈ directions, vol.LocalFits (shift p d)

theorem Bordered.clear (h : vol.Bordered) (hp : vol.Inside p) : vol.Clear p :=
  ⟨hp.2, h.fits p hp, h.localFits p hp⟩

/-- Only light was written, and no cell of the chunk is above the bound. -/
structure Within (k : LightKind) (B : Levels) (vol vol' : ChunkVolume) : Prop where
  repainted : Repainted vol vol'
  le : ∀ q, vol.Inside q → (LightVolume.field vol').level k q ≤ B q

namespace Within

theorem mono {B' : Levels} (h : Within k B vol vol') (hB : ∀ q, B q ≤ B' q) :
    Within k B' vol vol' :=
  ⟨h.repainted, fun q hq => (h.le q hq).trans (hB q)⟩

/-- Writing a level within the bound; outside the chunk any level, for the write is dropped. -/
theorem written {n : Nat} (h : Within k B vol vol') (hn : n ≤ B p) :
    Within k B vol (vol'.written p k n) := by
  refine ⟨h.repainted.trans repainted_written, fun q hq => ?_⟩
  have hfits : vol'.LocalFits q := h.repainted.localFits.2 hq.2
  by_cases hp : vol'.Holds p
  · rw [level_written hp hfits]
    split
    · rename_i heq
      rw [heq.2]
      exact (Nat.min_le_left ..).trans hn
    · exact h.le q hq
  · rw [level_written_of_not_holds hp hfits]
    exact h.le q hq

end Within

/-- A flood from `o` stays within a gentle bound. -/
theorem guarded_within (hB : Gentle B) (hfaulty : ¬ (vol.Bordered ∧ vol.Clear o) → faulty) :
    GuardedVolume ChunkVolume faulty (fun p => vol.Inside p ∨ p = o) vol.Inside k
      (fun p v => v ≤ B p) (Within k B vol) := by
  have hclear : ∀ p, vol.Inside p ∨ p = o → vol.Bordered ∧ vol.Clear o → vol.Clear p := by
    rintro p (hp | rfl) ⟨hb, ho⟩
    · exact hb.clear hp
    · exact ho
  have hfits : ∀ {vol' : ChunkVolume} {p : Pos}, Within k B vol vol' →
      Near (fun p => vol.Inside p ∨ p = o) p → ¬ vol'.LocalFits p → faulty := by
    intro vol' p hin hp hn
    refine hfaulty fun hgood => hn (hin.repainted.localFits.2 ?_)
    rcases hp with hp | ⟨q, hq, d, hd, rfl⟩
    · exact (hclear p hp hgood).localFits
    · exact (hclear q hq hgood).beside d hd
  -- the step, then the three readings, then the write
  refine ⟨hB.allowance, .inl, ?_, ?_, ?_, ?_, ?_⟩
  · intro p d hp hd
    unfold Light.step Pos.offset
    have hstep : ∀ h : vol.Bordered ∧ vol.Clear o, _ := fun h => (hclear p hp h).fits d hd
    apply (checkCoord_ensures _ fun hn => hfaulty fun h => hn (hstep h).1).bind_eq
    apply (checkCoord_ensures _ fun hn => hfaulty fun h => hn (hstep h).2.1).bind_eq
    apply (checkCoord_ensures _ fun hn => hfaulty fun h => hn (hstep h).2.2).bind_eq
    exact Ensures.pure rfl
  · intro vol' p hin hp
    apply ((readings_ensures (hfits hin hp)).2.2 k).mono
    rintro v rfl hA
    exact hin.le p hA
  · intro vol' p hin hp
    exact (readings_ensures (hfits hin hp)).2.1.mono fun _ _ => trivial
  · intro vol' p hin hp
    apply (readings_ensures (hfits hin hp)).1.mono
    rintro b rfl hacc
    exact (bordered_laws.accepts_iff hin.repainted p).1 hacc
  · intro vol' p v hin hp hv
    show Ensures faulty (vol'.setLight p k v) _
    -- without a local position the write stops
    by_cases hlocal : vol'.LocalFits p
    · rw [setLight_of_fits hlocal]
      exact Ensures.ok (hin.written hv)
    · rcases toLocal_of_not_fits hlocal with ⟨e, he⟩
      have hset : vol'.setLight p k v = .error e := by
        unfold ChunkVolume.setLight
        rw [he]
        rfl
      rw [hset]
      exact hfits hin (Near.inside hp) hlocal

end ChunkVolume

namespace Light

open ChunkVolume (Within guarded_within)

variable {reg : Registry} {k : LightKind} {vol vol' : ChunkVolume} {B : Levels} {faulty : Prop}

/-- After a call the levels are within the bound that held before it, or within what the call
accounts for. -/
theorem Flood.run_ensures {c : Flood} (hB : Gentle B) (h : Within k B vol vol')
    (hfaulty : ¬ (vol.Bordered ∧ vol.Clear c.origin) → faulty) :
    Ensures faulty (c.run reg k vol') (Within k (fun p => max (B p) (c.lent p)) vol) := by
  have hguarded := guarded_within (k := k) (hB.max c.gentle_lent) hfaulty
  have hstart := h.mono fun q => Nat.le_max_left (B q) (c.lent q)
  cases c with
  | spread o v =>
    refine spread_guarded hguarded hstart (.inr rfl) ?_
    -- at its origin the call accounts for all that is spread
    show min v maxLight ≤ max (B o) (min v maxLight - taxicab o o)
    rw [taxicab_self]
    exact Nat.le_max_right ..
  | retract o v => exact retract_guarded hguarded hstart (.inr rfl) v

/-- After all calls the light is within the bound that held before and what the calls account for.
-/
theorem runAll_ensures {calls : List Flood} (hB : Gentle B) (h : Within k B vol vol')
    (hfaulty : ¬ (vol.Bordered ∧ ∀ c ∈ calls, vol.Clear c.origin) → faulty) :
    Ensures faulty (runAll reg k vol' calls)
      (Within k (fun p => max (B p) (reach calls p)) vol) := by
  unfold runAll
  -- the bound grows by what the first call lends, and stays gentle
  induction calls generalizing B vol' with
  | nil => exact Ensures.pure (h.mono fun q => Nat.le_max_left ..)
  | cons c rest ih =>
    rw [List.foldlM_cons]
    have hfirst : ¬ (vol.Bordered ∧ vol.Clear c.origin) → faulty := fun hn =>
      hfaulty fun hgood => hn ⟨hgood.1, hgood.2 c List.mem_cons_self⟩
    have hrest : ¬ (vol.Bordered ∧ ∀ c ∈ rest, vol.Clear c.origin) → faulty := fun hn =>
      hfaulty fun hgood => hn ⟨hgood.1, fun d hd => hgood.2 d (List.mem_cons_of_mem c hd)⟩
    apply (Flood.run_ensures hB h hfirst).bind
    intro vol₁ h₁
    apply (ih (hB.max c.gentle_lent) h₁ hrest).mono
    intro vol₂ h₂
    refine h₂.mono fun q => ?_
    rw [reach_cons, Nat.max_assoc]

/-- However often light is spread and taken back in a chunk that was dark, rightly or wrongly, at
its cells or outside, no cell is brighter than some spread call has left after as many axis steps.
The calls come to an end if no coordinate overflows. -/
theorem light_within_reach (reg : Registry) (vol : ChunkVolume) (k : LightKind)
    (calls : List Flood) (hdark : ∀ p, vol.Inside p → (LightVolume.field vol).level k p = 0) :
    (vol.Bordered ∧ (∀ c ∈ calls, vol.Clear c.origin) →
      ∃ vol', runAll reg k vol calls = .ok vol') ∧
      ∀ vol', runAll reg k vol calls = .ok vol' → ChunkVolume.Repainted vol vol' ∧
        ∀ p, vol.Inside p → (LightVolume.field vol').level k p ≤ reach calls p := by
  have hstart : Within k (fun _ => 0) vol vol :=
    ⟨ChunkVolume.Repainted.refl, fun q hq => (hdark q hq).le⟩
  have hsafe : Ensures (¬ (vol.Bordered ∧ ∀ c ∈ calls, vol.Clear c.origin))
      (runAll reg k vol calls) (Within k (fun p => max 0 (reach calls p)) vol) :=
    runAll_ensures Gentle.zero hstart id
  have hrun := hsafe.total
  refine ⟨hrun.1, fun vol' heq => ⟨(hrun.2 vol' heq).repainted, fun p hp => ?_⟩⟩
  have hle := (hrun.2 vol' heq).le p hp
  rwa [Nat.zero_max] at hle

/-- A lamp beside two cells of air and one in them, then a retraction of more than there is. -/
theorem light_within_reach_beside : ∃ vol vol' : ChunkVolume,
    runAll .empty .block vol [.spread ⟨-1, 0, 0⟩ 200, .spread ⟨0, 0, 0⟩ 7, .retract ⟨1, 0, 0⟩ 9] =
        .ok vol' ∧
      (LightVolume.field vol').level .block ⟨1, 0, 0⟩ ≤ 13 := by
  rcases ChunkVolume.exists_pair with ⟨vol, hbordered, hblank, hcells, hfits⟩
  have ho : vol.Inside ⟨0, 0, 0⟩ := (hcells _).2 (.inl rfl)
  have hn : vol.Inside ⟨1, 0, 0⟩ := (hcells _).2 (.inr rfl)
  have houtside : vol.Clear ⟨-1, 0, 0⟩ := by
    refine ⟨hfits _ (by decide), by decide, fun d hd => hfits _ ?_⟩
    revert d
    decide
  have hrun := light_within_reach .empty vol .block
    [.spread ⟨-1, 0, 0⟩ 200, .spread ⟨0, 0, 0⟩ 7, .retract ⟨1, 0, 0⟩ 9]
    fun p hp => ChunkVolume.level_of_blank hblank hp _
  -- the first flood starts beside the chunk, the others in it
  have hclear : ∀ c ∈ [Flood.spread ⟨-1, 0, 0⟩ 200, .spread ⟨0, 0, 0⟩ 7, .retract ⟨1, 0, 0⟩ 9],
      vol.Clear c.origin := by
    intro c hc
    simp only [List.mem_cons, List.not_mem_nil, or_false] at hc
    rcases hc with rfl | rfl | rfl
    · exact houtside
    · exact hbordered.clear ho
    · exact hbordered.clear hn
  rcases hrun.1 ⟨hbordered, hclear⟩ with ⟨vol', heq⟩
  exact ⟨vol, vol', heq, (hrun.2 vol' heq).2 _ hn⟩

end Light

end VoxelWorld
