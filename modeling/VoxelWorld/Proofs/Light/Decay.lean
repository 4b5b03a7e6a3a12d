import VoxelWorld.Proofs.Light.Seed
import VoxelWorld.Proofs.Light.Spread
import VoxelWorld.Proofs.Registry

/-!
# Proofs.Light.Decay — spreading one source over light that is in order

Spreading stops at every cell that is bright enough already. This loses nothing where the light
is `Closed`: a cell that was passed over has had its own light spread before.

* `distance` is the number of steps of a shortest walk.
* Over closed levels spreading gives each cell its old level or what is left of the source at that
  distance, whichever is brighter (`SpreadFrom.eq_max`), and leaves the levels closed
  (`SpreadFrom.closed`).
* `spread_decays` says so of a chunk on its own, of any sides and at any place.
-/

namespace VoxelWorld

namespace Light

variable {A C : Pos → Prop} {L L' : Levels} {o p q : Pos} {v n : Nat}

/-! ## Shortest walks -/

/-- Some walk leads from the first cell to the second. -/
def Reaches (C : Pos → Prop) (o p : Pos) : Prop := ∃ n, Walk C n o p

/-- The number of steps of a shortest walk, where there is one. -/
noncomputable def distance (C : Pos → Prop) (o p : Pos) : Nat := sInf {n | Walk C n o p}

theorem Reaches.walk (h : Reaches C o p) : Walk C (distance C o p) o p := Nat.sInf_mem h

theorem Walk.distance_le (h : Walk C n o p) : distance C o p ≤ n := Nat.sInf_le h

theorem distance_self : distance C o o = 0 := Nat.le_zero.1 (Walk.nil o).distance_le

/-- A cell beside another one is one step away. -/
theorem distance_eq_one (hadj : Adjacent o p) (hp : C p) : distance C o p = 1 := by
  have hwalk : Walk C 1 o p := (Walk.nil o).snoc hadj hp
  have hle := hwalk.distance_le
  have hpos : distance C o p ≠ 0 := by
    intro h0
    have hshortest := Reaches.walk ⟨1, hwalk⟩
    rw [h0] at hshortest
    cases hshortest
    exact hadj.ne rfl
  omega

/-! ## Levels in order -/

/-- Beside a cell that light enters, no cell that light enters is darker by more than one. -/
def Closed (C : Pos → Prop) (L : Levels) : Prop :=
  ∀ p q, C p → Adjacent p q → C q → L p - 1 ≤ L q

/-- A field is closed if and only if no light would flow out of any cell that light enters. -/
theorem closed_iff_even : Closed C L ↔ ∀ p, C p → Even C L p := by
  constructor
  · rintro h p hp q ⟨hadj, hq, hlt⟩
    have := h p q hp hadj hq
    omega
  · intro h p q hp hadj hq
    have := (h p hp).le hadj hq
    omega

namespace SpreadFrom

/-- Spreading leaves no step that was not there. -/
theorem closed (h : SpreadFrom A C L o v L') (hv : L o ≤ v) (hc : Closed C L) : Closed C L' := by
  rw [closed_iff_even] at hc ⊢
  intro p hp q hs
  exact hc p hp q (h.steep hv hs).1

/-- Light arrives along every walk: the cell that a walk comes through has shed its light, now or
before. -/
theorem le_of_walk (h : SpreadFrom A C L o v L') (hv : L o ≤ v) (hc : Closed C L)
    (hwalk : Walk C n o q) : v - n ≤ L' q := by
  have hclosed := closed_iff_even.1 (h.closed hv hc)
  -- the origin is taken for the only source, with the light that was spread
  let given : Levels := fun s => if s = o then v else 0
  have hgiven : ∀ s, given s ≤ L' s := by
    intro s
    show (if s = o then v else 0) ≤ L' s
    split
    · subst s
      exact h.origin.ge
    · exact Nat.zero_le _
  have heven : ∀ s, 0 < given s ∨ C s → Even C L' s := by
    rintro s (hs | hs)
    · by_cases hso : s = o
      · subst hso
        exact h.even
      · rw [show given s = 0 from if_neg hso] at hs
        exact absurd hs (lt_irrefl 0)
    · exact hclosed s hs
  have hle := hwalk.le_of_even hgiven heven
  rwa [show given o = v from if_pos rfl] at hle

/-- No more arrives than a shortest walk leaves over. -/
theorem le_of_lt (h : SpreadFrom A C L o v L') (hL' : ∀ q, L' q ≤ maxLight)
    (hq : L q < L' q) : Reaches C o q ∧ L' q + distance C o q ≤ v := by
  by_cases hqo : q = o
  · subst hqo
    rw [distance_self, h.origin]
    exact ⟨⟨0, .nil q⟩, le_rfl⟩
  · rw [← Function.update_of_ne hqo v L] at hq
    rcases h.traced hL' q hq with ⟨n, hwalk, hle⟩
    have := hwalk.distance_le
    exact ⟨⟨n, hwalk⟩, by omega⟩

/-- A cell that the source reaches. -/
theorem eq_max (h : SpreadFrom A C L o v L') (hL' : ∀ q, L' q ≤ maxLight) (hv : L o ≤ v)
    (hc : Closed C L) (hq : Reaches C o q) : L' q = max (L q) (v - distance C o q) := by
  have hmono := h.mono hv q
  have harrived := h.le_of_walk hv hc hq.walk
  apply Nat.le_antisymm
  · by_cases hlt : L q < L' q
    · have hle := (h.le_of_lt hL' hlt).2
      exact le_max_of_le_right (by omega)
    · exact le_max_of_le_left (Nat.le_of_not_lt hlt)
  · exact max_le hmono harrived

/-- A cell that it does not reach. -/
theorem eq_self (h : SpreadFrom A C L o v L') (hL' : ∀ q, L' q ≤ maxLight) (hv : L o ≤ v)
    (hq : ¬ Reaches C o q) : L' q = L q := by
  by_contra hne
  have hmono := h.mono hv q
  exact hq (h.le_of_lt hL' (by omega)).1

end SpreadFrom

end Light

/-! ## A chunk on its own -/

namespace ChunkVolume

variable {vol : ChunkVolume} {p : Pos}

/-- A cell of the chunk that has a local position. -/
def Inside (vol : ChunkVolume) (p : Pos) : Prop := vol.Holds p ∧ vol.LocalFits p

/-- A chunk accepts light in its own cells, as far as these have local positions. -/
theorem acceptsLight_eq_true : vol.acceptsLight p = .ok true ↔ vol.Inside p := by
  by_cases hfits : vol.LocalFits p
  · unfold acceptsLight
    rw [toLocal_of_fits hfits]
    show Except.ok (decide (vol.chunk.dims.Contains _ _ _)) = .ok true ↔ _
    rw [Except.ok.injEq, decide_eq_true_iff]
    exact (and_iff_left hfits).symm
  · rcases toLocal_of_not_fits hfits with ⟨e, he⟩
    unfold acceptsLight
    rw [he]
    exact ⟨nofun, fun h => absurd h.2 hfits⟩

/-- The positions beside the cells of the chunk fit the width of a coordinate, in the world and in
the chunk. -/
structure Bordered (vol : ChunkVolume) : Prop where
  fits : ∀ p, vol.Inside p → ∀ d ∈ Light.directions, FitsCoord (p.x + d.1) ∧
    FitsCoord (p.y + d.2.1) ∧ FitsCoord (p.z + d.2.2)
  localFits : ∀ p, vol.Inside p → ∀ d ∈ Light.directions, vol.LocalFits (Light.shift p d)

/-- A chunk with room around it is bordered. -/
theorem bordered_of_roomy (hd : vol.chunk.dims.Valid)
    (hx : vol.baseX = vol.chunk.coord.x * vol.chunk.dims.width)
    (hz : vol.baseZ = vol.chunk.coord.z * vol.chunk.dims.depth)
    (hroom : Roomy vol.chunk.dims vol.chunk.coord) : vol.Bordered := by
  constructor
  · intro p hp d hdir
    rcases (step_ensures hd hx hz (fun hn => hn hroom) hp.1 hdir).exists_ok not_false with
      ⟨_, hstep, -⟩
    rcases Checked.bind_eq_ok.1 hstep with ⟨_, hx, hstep⟩
    rcases Checked.bind_eq_ok.1 hstep with ⟨_, hy, hstep⟩
    rcases Checked.bind_eq_ok.1 hstep with ⟨_, hz, -⟩
    exact ⟨(checkCoord_eq_ok.1 hx).1, (checkCoord_eq_ok.1 hy).1, (checkCoord_eq_ok.1 hz).1⟩
  · intro p hp d hdir
    exact localFits_of_near hd (Near.beside hp.1 ⟨d, hdir, rfl⟩)

/-- A chunk of any sides is a volume that stops only for want of coordinates. -/
theorem bordered_laws :
    VolumeLaws ChunkVolume (¬ vol.Bordered) vol.Inside (Repainted vol) := by
  refine lawsOf (fun _ => Iff.rfl) (fun hp hdir => ?_) fun p hp hn hb => ?_
  · unfold Light.step Pos.offset
    apply (checkCoord_ensures _ fun hn hb => hn (hb.fits _ hp _ hdir).1).bind_eq
    apply (checkCoord_ensures _ fun hn hb => hn (hb.fits _ hp _ hdir).2.1).bind_eq
    apply (checkCoord_ensures _ fun hn hb => hn (hb.fits _ hp _ hdir).2.2).bind_eq
    exact Ensures.pure rfl
  · rcases hp with hp | ⟨q, hq, d, hdir, rfl⟩
    · exact hn hp.2
    · exact hn (hb.localFits q hq d hdir)

/-- Light enters the translucent cells of the chunk. -/
theorem conducts_iff {reg : Registry} : (LightVolume.field vol).Conducts reg p ↔
    vol.Inside p ∧ reg.isTranslucent ((LightVolume.field vol).block p) = true := by
  unfold LightField.Conducts
  rw [bordered_laws.accepts_iff Repainted.refl p]

/-- Light enters no cell outside the chunk. -/
theorem inside_of_conducts {reg : Registry} (h : (LightVolume.field vol).Conducts reg p) :
    vol.Inside p :=
  (conducts_iff.1 h).1

namespace Repainted

variable {vol' : ChunkVolume}

/-- Written light moves no cell into the chunk or out of it. -/
theorem inside (h : Repainted vol vol') : vol'.Inside p ↔ vol.Inside p :=
  and_congr h.holds h.localFits

/-- Writing light does not take the room around the chunk away. -/
theorem bordered (h : Repainted vol vol') (hb : vol.Bordered) : vol'.Bordered where
  fits p hp := hb.fits p (h.inside.1 hp)
  localFits p hp d hd := h.localFits.2 (hb.localFits p (h.inside.1 hp) d hd)

end Repainted

theorem inside_pos (hd : vol.chunk.dims.Valid) {x y z : Int}
    (hc : vol.chunk.dims.Contains x y z) : vol.Inside (vol.pos x y z) :=
  ⟨holds_pos hc, localFits_of_near hd (Near.inside (holds_pos hc))⟩

/-- A blank chunk is dark. -/
theorem level_of_blank (h : vol.chunk.Blank) (hp : vol.Inside p) (k : LightKind) :
    (LightVolume.field vol).level k p = 0 := by
  rw [(field_of_fits hp.2).2.2]
  exact h.light _ _ _ k hp.1

/-- Light enters every cell of a blank chunk. -/
theorem conducts_of_blank (h : vol.chunk.Blank) (hp : vol.Inside p) :
    (LightVolume.field vol).Conducts .empty p := by
  refine conducts_iff.2 ⟨hp, ?_⟩
  rw [(field_of_fits hp.2).2.1, h.block]
  show (Registry.empty.get air).translucent = true
  rw [Registry.get_empty, if_pos rfl]
  rfl

/-- Two cells of air side by side. -/
theorem exists_pair : ∃ vol : ChunkVolume, vol.Bordered ∧ vol.chunk.Blank ∧
    (∀ p, vol.Inside p ↔ p = ⟨0, 0, 0⟩ ∨ p = ⟨1, 0, 0⟩) ∧
    ∀ p, FitsCoord p.x ∧ FitsCoord p.z → vol.LocalFits p := by
  obtain ⟨chunk, hnew⟩ : ∃ chunk, Chunk.new ⟨0, 0⟩ ⟨2, 1, 1⟩ = .ok chunk := ⟨_, rfl⟩
  rcases Chunk.new_spec hnew with ⟨hcoord, hdims, hblank⟩
  have hd : chunk.dims.Valid := by
    rw [hdims]
    constructor <;> decide
  have hroom : Roomy chunk.dims chunk.coord := by
    rw [hdims, hcoord]
    constructor <;> decide
  refine ⟨⟨chunk, 0, 0⟩, bordered_of_roomy hd ?_ ?_ hroom, hblank, fun p => ?_, fun p hp => ?_⟩
  · exact hcoord ▸ (Int.zero_mul _).symm
  · exact hcoord ▸ (Int.zero_mul _).symm
  · -- these two cells lie in the chunk, and no others
    constructor
    · rintro ⟨hp, -⟩
      unfold Holds at hp
      rw [show (ChunkVolume.mk chunk 0 0).chunk.dims = ⟨2, 1, 1⟩ from hdims] at hp
      rcases p with ⟨x, y, z⟩
      rcases hp with ⟨h1, h2, h3, h4, h5, h6⟩
      simp only [Pos.mk.injEq] at *
      omega
    · have hin : ∀ x, chunk.dims.Contains x 0 0 → ChunkVolume.Inside ⟨chunk, 0, 0⟩ ⟨x, 0, 0⟩ := by
        intro x hx
        have h : ChunkVolume.Inside ⟨chunk, 0, 0⟩ (pos ⟨chunk, 0, 0⟩ x 0 0) := inside_pos hd hx
        rwa [show pos ⟨chunk, 0, 0⟩ x 0 0 = ⟨x, 0, 0⟩ by simp [pos]] at h
      rw [hdims] at hin
      rintro (rfl | rfl)
      · exact hin 0 (by decide)
      · exact hin 1 (by decide)
  · unfold LocalFits
    rwa [Int.sub_zero, Int.sub_zero]

end ChunkVolume

namespace Light

/-- What spreading `v` from `o` does to a chunk in one channel. -/
structure Decayed (reg : Registry) (k : LightKind) (o : Pos) (v : Nat) (vol vol' : ChunkVolume) :
    Prop where
  reached : ∀ p, Reaches ((LightVolume.field vol).Conducts reg) o p →
    (LightVolume.field vol').level k p = max ((LightVolume.field vol).level k p)
      (v - distance ((LightVolume.field vol).Conducts reg) o p)
  kept : ∀ p, ¬ Reaches ((LightVolume.field vol).Conducts reg) o p →
    (LightVolume.field vol').level k p = (LightVolume.field vol).level k p
  closed : Closed ((LightVolume.field vol').Conducts reg) ((LightVolume.field vol').level k)
  other : ∀ j, j ≠ k → (LightVolume.field vol').level j = (LightVolume.field vol).level j
  block : (LightVolume.field vol').block = (LightVolume.field vol).block
  repainted : ChunkVolume.Repainted vol vol'

variable {reg : Registry} {vol vol' : ChunkVolume} {k : LightKind} {o : Pos} {v : Nat}

/-- Spreading over a closed field gives each cell the larger of its level and what is left of `v` on
the shortest way. -/
theorem decayed_of_spreadFrom {L' : Levels} (hv : (LightVolume.field vol).level k o ≤ v)
    (hc : Closed ((LightVolume.field vol).Conducts reg) ((LightVolume.field vol).level k))
    (hshow : Shows (ChunkVolume.Repainted vol) (LightVolume.field vol) k vol' L')
    (h : SpreadFrom vol.Inside ((LightVolume.field vol).Conducts reg)
      ((LightVolume.field vol).level k) o v L') : Decayed reg k o v vol vol' := by
  have hL' := hshow.level_le ChunkVolume.bordered_laws
  refine ⟨fun p hp => ?_, fun p hp => ?_, ?_, fun j hj => ?_, ?_, hshow.good⟩
  · rw [hshow.levels]
    exact h.eq_max hL' hv hc hp
  · rw [hshow.levels]
    exact h.eq_self hL' hv hp
  · rw [hshow.conducts, hshow.levels]
    exact h.closed hv hc
  · rw [hshow.field_eq, LightField.level_withLevels_of_ne _ _ hj]
  · rw [hshow.field_eq, LightField.block_withLevels]

/-- Spreading a source over closed light gives each cell its old level or what is left of the source
where a shortest walk arrives, whichever is brighter. It comes to an end if no coordinate
overflows. -/
theorem spread_decays (reg : Registry) (vol : ChunkVolume) (k : LightKind) (o : Pos) (v : Nat)
    (ho : vol.acceptsLight o = .ok true) (hpos : 0 < v) (hv : v ≤ maxLight)
    (hlevel : (LightVolume.field vol).level k o ≤ v)
    (hc : Closed ((LightVolume.field vol).Conducts reg) ((LightVolume.field vol).level k)) :
    (vol.Bordered → ∃ vol', spread reg vol o k v = .ok vol') ∧
      ∀ vol', spread reg vol o k v = .ok vol' → Decayed reg k o v vol vol' := by
  have hspread : Ensures (¬ vol.Bordered) (spread reg vol o k v) fun vol' => ∃ L',
      Shows (ChunkVolume.Repainted vol) (LightVolume.field vol) k vol' L' ∧
        SpreadFrom vol.Inside ((LightVolume.field vol).Conducts reg)
          ((LightVolume.field vol).level k) o v L' :=
    spread_ensures ChunkVolume.bordered_laws (Shows.refl ChunkVolume.Repainted.refl)
      (ChunkVolume.acceptsLight_eq_true.1 ho) hpos hv
  constructor
  · intro hb
    rcases hspread.exists_ok (not_not.2 hb) with ⟨vol', heq, -⟩
    exact ⟨vol', heq⟩
  · intro vol' heq
    rcases hspread.of_eq_ok heq with ⟨L', hshow, hfrom⟩
    exact decayed_of_spreadFrom hlevel hc hshow hfrom

/-- There is no light in a blank chunk, so it is closed. -/
theorem closed_of_blank (h : vol.chunk.Blank) :
    Closed ((LightVolume.field vol).Conducts reg) ((LightVolume.field vol).level k) := by
  intro p q hp _ _
  rw [ChunkVolume.level_of_blank h (ChunkVolume.inside_of_conducts hp)]
  exact Nat.zero_le _

/-- A lamp of level five in one of two cells of air. -/
theorem spread_decays_beside : ∃ vol vol' : ChunkVolume,
    spread .empty vol ⟨0, 0, 0⟩ .block 5 = .ok vol' ∧
      (LightVolume.field vol').level .block ⟨0, 0, 0⟩ = 5 ∧
      (LightVolume.field vol').level .block ⟨1, 0, 0⟩ = 4 := by
  rcases ChunkVolume.exists_pair with ⟨vol, hbordered, hblank, hcells, -⟩
  have ho : vol.Inside ⟨0, 0, 0⟩ := (hcells _).2 (.inl rfl)
  have hn : vol.Inside ⟨1, 0, 0⟩ := (hcells _).2 (.inr rfl)
  have hair := ChunkVolume.conducts_of_blank hblank hn
  have hadj : Adjacent ⟨0, 0, 0⟩ ⟨1, 0, 0⟩ := ⟨(1, 0, 0), List.mem_cons_self, rfl⟩
  have hdark : (LightVolume.field vol).level .block ⟨0, 0, 0⟩ ≤ 5 := by
    rw [ChunkVolume.level_of_blank hblank ho]
    decide
  have hspread := spread_decays .empty vol .block ⟨0, 0, 0⟩ 5
    (ChunkVolume.acceptsLight_eq_true.2 ho) (by decide) (by decide) hdark (closed_of_blank hblank)
  rcases hspread.1 hbordered with ⟨vol', heq⟩
  have h := hspread.2 vol' heq
  refine ⟨vol, vol', heq, ?_, ?_⟩
  · rw [h.reached _ ⟨0, .nil _⟩, distance_self, ChunkVolume.level_of_blank hblank ho]
    rfl
  · rw [h.reached _ ⟨1, (Walk.nil _).snoc hadj hair⟩, distance_eq_one hadj hair,
      ChunkVolume.level_of_blank hblank hn]
    rfl

end Light

end VoxelWorld
